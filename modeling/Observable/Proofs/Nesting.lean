import Observable.Proofs.Forest
import Observable.Proofs.Quiet

/-!
# Updates in progress are nested along a line

In a quiet run, the objects that are being updated form a line of sources: an update that was caused
by a round belongs to an object whose source is the owner of that round, and the outermost update
belongs to a free property or there is none (`Config.Nested.line`). A line meets no object twice, so
the owner of a round keeps its value until the round ends, and every registration that the round has
still to call stays in the owner's list (`Stack.Nested`).

The script that computes a value for a bound property or a binding comes from its callback, applied
to the present value of its source (`Stack.Answers`).
-/

namespace Observable

variable {V : Type}

/-! ## Answers and failures -/

/-- The answer of a script, if it performs no operation. -/
def Script.answer? {ρ : Role} (script : Script V ρ) : Option (Answer V ρ) :=
  script.outcome?.map (·.2)

theorem Script.answer?_emit {ρ : Role} (e : Event V) (rest : Script V ρ) :
    (Script.emit e rest).answer? = rest.answer? := by
  unfold answer?
  rw [outcome?_emit, Option.map_map]
  rfl

/-- The callback whose failure is passed on, if a callback failed. -/
def Error.stage? : Error → Option Stage
  | .failed stage _ => some stage
  | .relayed stage _ => some stage
  | _ => none

theorem Cause.stage?_during (stage : Stage) (c : Cause) : (c.during stage).stage? = some stage := by
  cases c <;> rfl

/-- The failure in a result. -/
def failure? {α : Type} : Except Error α → Option Error
  | .ok _ => none
  | .error e => some e

/-! ## Frames -/

namespace Stack

/-- The objects that are being set, updated or notified, innermost first. -/
def line : {a : Awaits} → Stack V a → List Id
  | _, .idle => []
  | _, .script _ below => below.line
  | _, .setting i below => i :: below.line
  | _, .following i below => i :: below.line
  | _, .validating _ below => below.line
  | _, .reporting _ _ below => below.line
  | _, .converting i below => i :: below.line
  | _, .wrapping _ _ _ below => below.line
  | _, .listening below => below.line
  | _, .round _ _ _ _ below => below.line
  | _, .notifying i _ below => i :: below.line
  | _, .updating _ _ below => below.line
  | _, .recomputing i below => i :: below.line

/-- The operation performed from outside sets a property. -/
def Rooted : {a : Awaits} → Stack V a → Prop
  | _, .idle => False
  | _, .script _ below => below.Rooted
  | _, .setting _ _ => True
  | _, .following _ below => below.Rooted
  | _, .validating _ below => below.Rooted
  | _, .reporting _ _ below => below.Rooted
  | _, .converting _ below => below.Rooted
  | _, .wrapping _ _ _ below => below.Rooted
  | _, .listening below => below.Rooted
  | _, .round _ _ _ _ below => below.Rooted
  | _, .notifying _ _ below => below.Rooted
  | _, .updating _ _ below => below.Rooted
  | _, .recomputing _ below => below.Rooted

/-- The bound property whose update the innermost frame waits for. -/
def followed? : Stack V .update → Option Id
  | .setting _ _ => none
  | .following i _ => some i

/-- The failure that a reporter is told of. -/
def reported? : {ρ : Role} → Stack V (.answer ρ) → Option Error
  | _, .validating _ _ => none
  | _, .reporting _ e _ => some e
  | _, .converting _ _ => none
  | _, .wrapping _ _ _ _ => none
  | _, .listening _ => none

/-- What rounds have still to call is in the lists of their owners, and an owner has the value that
its round is about. -/
def Nested (w : World V) : {a : Awaits} → Stack V a → Prop
  | _, .idle => True
  | _, .script _ below => below.Nested w
  | _, .setting _ below => below.Nested w
  | _, .following _ below => below.Rooted ∧ below.Nested w
  | _, .validating _ below => below.Nested w
  | _, .reporting _ _ below => below.Nested w
  | _, .converting _ below => below.Rooted ∧ below.Nested w
  | _, .wrapping _ _ _ below => below.Nested w
  | _, .listening below => below.Nested w
  | _, .round rest _ _ new below =>
    (∀ r ∈ rest, r ∈ w.registrations below.owner) ∧
      (w.shape? below.owner = some .bare ∨ (w.value? below.owner = some new ∧ below.Rooted)) ∧
        below.Nested w
  | _, .notifying _ _ below => below.Nested w
  | _, .updating i _ below => i = below.updated ∧ below.Nested w
  | _, .recomputing _ below => below.Rooted ∧ below.Nested w

/-- A script computes a value for an object from the value of its source. -/
def Answers (w : World V) : {ρ : Role} → Stack V (.answer ρ) → Script V ρ → Prop
  | _, .validating _ below, run => ∀ t p x, below.followed? = some t →
      w.property? t = some p → p.source.bind w.value? = some x →
        run.answer? = (p.validate x).answer?
  | _, .reporting _ _ _, _ => True
  | _, .converting t _, run => ∀ b x, w.binding? t = some b → w.value? b.source = some x →
      run.answer? = (b.convert x).answer?
  | _, .wrapping i _ convert _, run => ∀ x, w.value? i = some x →
      run.answer? = (convert x).answer?
  | _, .listening _, _ => True

theorem line_update (k : Stack V .update) : ∃ tail, k.line = k.updated :: tail := by
  cases k with
  | setting i k => exact ⟨_, rfl⟩
  | following i k => exact ⟨_, rfl⟩

theorem Nested.line_round {w : World V} {k : Stack V .round} (hk : k.Nested w) :
    ∃ tail, k.line = k.owner :: tail := by
  cases k with
  | notifying i j k => exact ⟨_, rfl⟩
  | recomputing i k => exact ⟨_, rfl⟩
  | updating i old k =>
    obtain ⟨tail, htail⟩ := k.line_update
    refine ⟨tail, ?_⟩
    show k.line = i :: tail
    rw [htail, hk.1]

theorem Nested.owner_mem {w : World V} {k : Stack V .round} (hk : k.Nested w) :
    k.owner ∈ k.line := by
  obtain ⟨tail, htail⟩ := hk.line_round
  rw [htail]
  exact List.mem_cons_self

/-- Updates of properties begin with `set`. -/
theorem Nested.rooted {w : World V} {k : Stack V .update} (hk : k.Nested w) : k.Rooted := by
  cases k with
  | setting i k => trivial
  | following i k => exact hk.1

/-- The frames stay nested as long as nothing changes about the objects that are being updated. -/
theorem Nested.congr {w w' : World V} {a : Awaits} {k : Stack V a} (hk : k.Nested w)
    (hregistrations : ∀ i, w'.registrations i = w.registrations i)
    (hshape : ∀ i, w'.shape? i = w.shape? i)
    (hvalue : ∀ i ∈ k.line, w'.value? i = w.value? i) : k.Nested w' := by
  induction k with
  | idle => trivial
  | script _ _ ih => exact ih hk hvalue
  | setting i _ ih => exact ih hk fun j hj => hvalue j (List.mem_cons_of_mem _ hj)
  | following i _ ih => exact ⟨hk.1, ih hk.2 fun j hj => hvalue j (List.mem_cons_of_mem _ hj)⟩
  | validating _ _ ih => exact ih hk hvalue
  | reporting _ _ _ ih => exact ih hk hvalue
  | converting i _ ih => exact ⟨hk.1, ih hk.2 fun j hj => hvalue j (List.mem_cons_of_mem _ hj)⟩
  | wrapping _ _ _ _ ih => exact ih hk hvalue
  | listening _ ih => exact ih hk hvalue
  | round rest _ _ new k ih =>
    obtain ⟨hrest, howner, hbelow⟩ := hk
    refine ⟨?_, ?_, ih hbelow hvalue⟩
    · intro r hr
      rw [hregistrations]
      exact hrest r hr
    · rw [hshape, hvalue _ hbelow.owner_mem]
      exact howner
  | notifying i _ _ ih => exact ih hk fun j hj => hvalue j (List.mem_cons_of_mem _ hj)
  | updating _ _ _ ih => exact ⟨hk.1, ih hk.2 hvalue⟩
  | recomputing i _ ih => exact ⟨hk.1, ih hk.2 fun j hj => hvalue j (List.mem_cons_of_mem _ hj)⟩

theorem Nested.store {w : World V} {a : Awaits} {k : Stack V a} (hk : k.Nested w) {i : Id}
    (hline : w.IsLine (i :: k.line)) (v : V) : k.Nested (w.store i v) :=
  hk.congr (fun _ => World.registrations_store ..) (fun _ => World.shape?_store ..)
    fun _ hj => hline.value?_store v hj

/-- What an update writes is none of the objects that it was caused by. -/
theorem Nested.store_updated {w : World V} {k : Stack V .update} (hk : k.Nested w)
    (hline : w.IsLine k.line) (v : V) : k.Nested (w.store k.updated v) := by
  cases k with
  | setting i k => exact Nested.store (k := k) hk hline v
  | following i k => exact ⟨hk.1, hk.2.store hline v⟩

/-- A round begins over the list of what was just written. -/
theorem Nested.announce {w : World V} {i observed : Id} {old v : V} {k : Stack V .round}
    (hk : k.Nested (w.store i v)) (howner : k.owner = i) (hrooted : k.Rooted)
    (hold : w.value? i = some old) :
    (Stack.round (w.registrations i) observed old v k).Nested (w.store i v) := by
  refine ⟨?_, .inr ⟨?_, hrooted⟩, hk⟩
  · intro r hr
    rw [howner, World.registrations_store]
    exact hr
  · rw [howner]
    exact World.value?_store_self hold v

/-- A round goes on to its next registration. -/
theorem Nested.next {w : World V} {r : Registration} {rest : List Registration} {observed : Id}
    {old new : V} {k : Stack V .round}
    (hk : (Stack.round (r :: rest) observed old new k).Nested w) :
    (Stack.round rest observed old new k).Nested w :=
  ⟨fun s hs => hk.1 s (List.mem_cons_of_mem _ hs), hk.2⟩

/-- What has the owner of a round as its source continues the line of the round. -/
theorem Nested.isLine_cons {w : World V} {k : Stack V .round} (hk : k.Nested w)
    (hline : w.IsLine k.line) {t : Id} {r : Registration}
    (hrelation : w.relation? t = some (k.owner, r)) : w.IsLine (t :: k.line) := by
  obtain ⟨tail, htail⟩ := hk.line_round
  rw [htail] at hline ⊢
  exact ⟨⟨r, hrelation⟩, hline⟩

end Stack

namespace Focus

def line (f : Focus V) : List Id := f.frames.2.line

def Rooted (f : Focus V) : Prop := f.frames.2.Rooted

def Nested (w : World V) (f : Focus V) : Prop := f.frames.2.Nested w

/-- The failure that is on its way to the operation performed from outside. -/
def error? : Focus V → Option Error
  | .operate _ _ => none
  | .reply _ _ => none
  | .run _ k => k.reported?
  | .round _ _ _ _ _ => none
  | .called r _ => failure? r
  | .rounded r _ => failure? r
  | .updated r _ => failure? r

def Answers (w : World V) : Focus V → Prop
  | .run script k => k.Answers w script
  | _ => True

end Focus

namespace Config

structure Nested (c : Config V) : Prop where
  line : c.state.world.IsLine c.focus.line
  frames : c.focus.Nested c.state.world
  answers : c.focus.Answers c.state.world
  /-- A failure comes from a validator or a listener. -/
  staged : ∀ e, c.focus.error? = some e → e.stage?.isSome = true

theorem staged_of_none : ∀ e, (none : Option Error) = some e → e.stage?.isSome = true := by
  intro e he
  cases he

/-- Nothing is in progress. -/
theorem nested_idle (s : State V) (r : Reply V) : Nested ⟨s, .reply r .idle⟩ :=
  ⟨trivial, trivial, trivial, staged_of_none⟩

theorem nested_fail {s : State V} {e : Error} {k : Stack V .update} (hline : s.world.IsLine k.line)
    (hframes : k.Nested s.world) (hstaged : e.stage?.isSome = true) : (s.fail e k).Nested := by
  have he : ∀ e', some e = some e' → e'.stage?.isSome = true := by
    intro e' heq
    cases heq
    exact hstaged
  exact State.fail_cases ⟨hline, hframes, trivial, he⟩
    fun p report hp hreport => ⟨hline, hframes, trivial, he⟩

theorem answers_emit {w : World V} {ρ : Role} {k : Stack V (.answer ρ)} {e : Event V}
    {rest : Script V ρ} (hk : k.Answers w (.emit e rest)) : k.Answers w rest := by
  cases k with
  | validating i k =>
    intro t p x ht hp hx
    rw [← Script.answer?_emit e]
    exact hk t p x ht hp hx
  | reporting i e k => trivial
  | converting t k =>
    intro b x hb hx
    rw [← Script.answer?_emit e]
    exact hk b x hb hx
  | wrapping i name convert k =>
    intro x hx
    rw [← Script.answer?_emit e]
    exact hk x hx
  | listening k => trivial

/-- What a round is about to pass on goes to an object below the owner. -/
theorem relation?_of_round {w : World V} (hw : w.Linked) {rest : List Registration} {observed : Id}
    {old new : V} {k : Stack V .round} (hframes : (Stack.round rest observed old new k).Nested w)
    {r : Registration} (hr : r ∈ rest) {t : Id} (ht : r.target? = some t) :
    w.relation? t = some (k.owner, r) ∧ w.value? k.owner = some new ∧ k.Rooted := by
  obtain ⟨hrest, howner, _⟩ := hframes
  have hrelation := hw.relation?_of_mem (hrest r hr) ht
  refine ⟨hrelation, ?_⟩
  rcases howner with hbare | howner
  · exact absurd hbare (hw.source t k.owner r hrelation).2
  · exact howner

variable [BEq V]

theorem Nested.transition {c d : Config V} (hc : c.Sound) (hquiet : c.IsQuiet) (hnamed : c.IsNamed)
    (hnested : c.Nested) (hmove : c.Transition d) : d.Nested := by
  obtain ⟨hline, hframes, hanswers, hstaged⟩ := hnested
  cases hmove with
  | act s a k =>
    have hidle := hquiet.focus.2.eq_idle
    subst hidle
    exact nested_idle _ _
  -- Nothing changes about the frames.
  | setUnknown | setBound | notifyUnknown | wrapUnknown | gone | unchanged | listened | called =>
    exact ⟨hline, hframes, trivial, staged_of_none⟩
  | @set s name i p k v hname hp hfree =>
    have hidle := hquiet.focus.2.eq_idle
    subst hidle
    refine ⟨?_, trivial, ?_, staged_of_none⟩
    · show s.world.relation? i = none
      rw [World.relation?_of_property? hp, hfree]
      rfl
    · intro t q x ht
      cases ht
  | @notify s name observed i j k old new hname hobserved =>
    have hidle := hquiet.focus.2.eq_idle
    subst hidle
    have hbare := hc.world.shape?_of_set hname
    exact ⟨World.relation?_of_bare hbare, ⟨fun _ hr => hr, .inl hbare, trivial⟩, trivial,
      staged_of_none⟩
  | @wrap s name i v k as convert hname hv =>
    refine ⟨hline, hframes, ?_, staged_of_none⟩
    intro x hx
    rw [hv] at hx
    cases hx
    rfl
  -- A quiet callback performs no operation and waits for no reply.
  | resume => exact hquiet.focus.elim
  | emit => exact ⟨hline, hframes, answers_emit hanswers, hstaged⟩
  | perform => exact absurd hquiet.focus.1 Script.not_isPassive_perform
  | @write s k old v i hold hne =>
    -- The frames below are about other objects, since a line meets no object twice.
    have hk : k.Nested s.world := hframes
    have hbelow : (Stack.updating k.updated old k).Nested (s.world.store k.updated v) :=
      ⟨rfl, hk.store_updated hline v⟩
    exact ⟨hline.congr fun _ => World.relation?_store .., hbelow.announce rfl hk.rooted hold,
      trivial, staged_of_none⟩
  | reject s i c k =>
    apply nested_fail hline hframes
    rw [Cause.stage?_during]
    rfl
  | reported => exact ⟨hline, hframes, trivial, hstaged⟩
  | announced => exact ⟨hline, hframes.2, trivial, staged_of_none⟩
  | announceFailed s i old e k => exact nested_fail hline hframes.2 (hstaged e rfl)
  | setDone s r i k =>
    have hidle : k = .idle := Stack.IsQuiet.eq_idle hquiet.focus
    subst hidle
    exact nested_idle _ _
  | followed s r i k =>
    rw [release_of_named hnamed]
    refine ⟨hline.tail, hframes.2, trivial, ?_⟩
    cases r with
    | ok old => exact staged_of_none
    | error e => exact hstaged
  | wrapped s i name convert v k =>
    have hidle := hquiet.focus.2.2.eq_idle
    subst hidle
    exact nested_idle _ _
  | convertedGone =>
    rw [release_of_named hnamed]
    exact ⟨hline.tail, hframes.2, trivial, staged_of_none⟩
  | @converted s i old v k hold =>
    have hbelow : (Stack.recomputing i k).Nested (s.world.store i v) :=
      ⟨hframes.1, hframes.2.store hline v⟩
    exact ⟨hline.congr fun _ => World.relation?_store .., hbelow.announce rfl hframes.1 hold,
      trivial, staged_of_none⟩
  | recomputed s r i k =>
    rw [release_of_named hnamed]
    exact ⟨hline.tail, hframes.2, trivial, hstaged⟩
  | roundDone => exact ⟨hline, hframes.2.2, trivial, staged_of_none⟩
  | callGone | boundGone | derivedGone =>
    exact ⟨hline, Stack.Nested.next hframes, trivial, staged_of_none⟩
  | send | listen =>
    exact ⟨hline.congr fun _ => rfl,
      (Stack.Nested.next hframes).congr (fun _ => rfl) (fun _ => rfl) fun _ _ => rfl,
      trivial, staged_of_none⟩
  -- The called object continues the line, and the change has the value of its source.
  | @deliver s i p rest observed old new k hp =>
    obtain ⟨hrelation, hvalue, hrooted⟩ :=
      relation?_of_round hc.world.linked hframes List.mem_cons_self rfl
    refine ⟨hframes.2.2.isLine_cons hline hrelation, ⟨hrooted, Stack.Nested.next hframes⟩, ?_,
      staged_of_none⟩
    intro t q x ht hq hx
    cases ht
    rw [hp] at hq
    cases hq
    rw [World.source_of_property? hp hrelation, Option.bind_some, hvalue] at hx
    cases hx
    rfl
  | @convert s i b rest observed old new k hb =>
    obtain ⟨hrelation, hvalue, hrooted⟩ :=
      relation?_of_round hc.world.linked hframes List.mem_cons_self rfl
    refine ⟨hframes.2.2.isLine_cons hline hrelation, ⟨hrooted, Stack.Nested.next hframes⟩, ?_,
      staged_of_none⟩
    intro q x hq hx
    rw [hb] at hq
    cases hq
    rw [World.source_of_binding? hb hrelation, hvalue] at hx
    cases hx
    rfl
  | listenFailed s c k =>
    refine ⟨hline, hframes, trivial, ?_⟩
    intro e he
    cases he
    rw [Cause.stage?_during]
    rfl
  | callFailed => exact ⟨hline, hframes.2.2, trivial, hstaged⟩
  | notified s r i j k =>
    have hidle : k = .idle := Stack.IsQuiet.eq_idle hquiet.focus
    subst hidle
    exact nested_idle _ _

theorem Run.nested {past : List (Config V)} {c : Config V} (hrun : Run Op.IsQuiet past c) :
    c.Nested := by
  induction hrun with
  | start hop => exact ⟨trivial, trivial, trivial, staged_of_none⟩
  | step hrun hstep ih => exact ih.transition hrun.sound hrun.quiet hrun.named (.of_step hstep)
  | perform hrun hreply hop ih => exact ⟨trivial, trivial, trivial, staged_of_none⟩

end Config

end Observable
