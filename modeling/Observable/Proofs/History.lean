import Observable.Proofs.Frames
import Observable.Proofs.Persistence

/-!
# Histories of runs

A run is given with the configurations that it went through, latest first (`Config.Run`), so that a
statement may look back: what was added and removed, what was written and when. These are questions
about single configurations (`Config.added?`, `Config.removed?`, `Config.written?`), and a history
is the list of their answers.

The one thing that the later files need to know about a transition is what it does to the world:
`Config.Effect` lists the seven possibilities, and the section after it what each object and each
listener keeps.
-/

namespace Observable

variable {V : Type} [BEq V]

/-! ## Replies -/

/-- The reply to `set`, given how the update ended. -/
def Reply.ofUpdate : Except Error V → Reply V
  | .ok old => .done (.value old)
  | .error e => .failed e

/-- The reply to `notify`, given how the round ended. -/
def Reply.ofRound : Except Error Unit → Reply V
  | .ok _ => .done .unit
  | .error e => .failed e

/-! ## What the next step does -/

/-- The value that an answer makes the frame which waits for it store, and where. -/
def State.written? (s : State V) : {ρ : Role} → Stack V (.answer ρ) → Answer V ρ → Option (Id × V)
  | _, .validating _ below, .ok v =>
    match s.world.value? below.updated with
    | none => none
    | some old => if old == v then none else some (below.updated, v)
  | _, .validating _ _, .error _ => none
  | _, .converting i _, v => (s.world.value? i).map fun _ => (i, v)
  | _, .reporting _ _ _, _ => none
  | _, .wrapping _ _ _ _, _ => none
  | _, .listening _, _ => none

namespace Config

/-- The object whose stored value the next step replaces, and the value that it stores. -/
def written? (c : Config V) : Option (Id × V) :=
  match c.focus with
  | .run (.stop a) below => c.state.written? below a
  | _ => none

theorem written?_converting (s : State V) (i : Id) (k : Stack V .call) (v : V) :
    written? ⟨s, .run (@Script.stop V .converter v) (.converting i k)⟩ =
      (s.world.value? i).map fun _ => (i, v) := rfl

/-- A validated value is written if it differs from the stored one. -/
theorem written?_validated {s : State V} {k : Stack V .update} {old v : V} (i : Id)
    (hold : s.world.value? k.updated = some old) (hne : (old == v) = false) :
    written? ⟨s, .run (@Script.stop V .validator (.ok v)) (.validating i k)⟩ =
      some (k.updated, v) := by
  simp [written?, State.written?, hold, hne]

/-- A converted value is written in any case. -/
theorem written?_converted {s : State V} {i : Id} {old v : V} {k : Stack V .call}
    (hold : s.world.value? i = some old) :
    written? ⟨s, .run (@Script.stop V .converter v) (.converting i k)⟩ = some (i, v) := by
  rw [written?_converting, hold]
  rfl

/-- What is written is what a validator or a converter answered, for an object that lives. -/
theorem written?_cases {c : Config V} {i : Id} {v : V} (hwritten : c.written? = some (i, v)) :
    ∃ old, c.state.world.value? i = some old ∧
      ((∃ j k, c.focus = .run (@Script.stop V .validator (.ok v)) (.validating j k) ∧
          k.updated = i ∧ (old == v) = false) ∨
        ∃ k, c.focus = .run (@Script.stop V .converter v) (.converting i k)) := by
  obtain ⟨s, f⟩ := c
  unfold written? at hwritten
  split at hwritten
  · next ρ a k hfocus =>
    cases hfocus
    cases k with
    | validating j k =>
      cases a with
      | error e => cases hwritten
      | ok w =>
        simp only [State.written?] at hwritten
        split at hwritten
        · cases hwritten
        · next old hold =>
          split at hwritten
          · cases hwritten
          · next hne =>
            cases hwritten
            exact ⟨old, hold, .inl ⟨j, k, rfl, rfl, Bool.eq_false_iff.2 hne⟩⟩
    | converting j k =>
      obtain ⟨old, hold, heq⟩ := Option.map_eq_some_iff.1 hwritten
      cases heq
      exact ⟨old, hold, .inr ⟨k, rfl⟩⟩
    | _ => cases hwritten
  · cases hwritten

omit [BEq V] in
/-- The listener that the next step adds on behalf of a user, and where. -/
def added? (c : Config V) : Option (Id × ListenerId) :=
  match c.focus with
  | .operate (.act a) _ => c.state.world.addition? a
  | _ => none

omit [BEq V] in
/-- The listener that the next step removes successfully on behalf of a user, and where. -/
def removed? (c : Config V) : Option (Id × ListenerId) :=
  match c.focus with
  | .operate (.act a) _ => c.state.world.removal? a
  | _ => none

theorem edit_of_step {c d : Config V} {a : Action V} {k : Stack V .reply}
    (hfocus : c.focus = .operate (.act a) k) (hstep : c.step = some d) :
    c.state.world.Edit k.holds a d.state.world := by
  obtain ⟨s, f⟩ := c
  cases hfocus
  cases hstep
  exact s.world.edit_act k.holds a

theorem register_of_added? {c d : Config V} (hstep : c.step = some d) {i : Id} {l : ListenerId}
    (hadd : c.added? = some (i, l)) :
    d.state.world = c.state.world.register i (.listener l) := by
  unfold added? at hadd
  split at hadd
  · next hfocus => exact (edit_of_step hfocus hstep).eq_of_addition? hadd
  · cases hadd

theorem unregister_of_removed? {c d : Config V} (hstep : c.step = some d) {i : Id}
    {l : ListenerId} (hremove : c.removed? = some (i, l)) :
    d.state.world = c.state.world.unregister i (.listener l) := by
  unfold removed? at hremove
  split at hremove
  · next hfocus => exact (edit_of_step hfocus hstep).eq_of_removal? hremove
  · cases hremove

omit [BEq V] in
/-- Listeners are added to what is there. -/
theorem Sound.alive_of_added? {c : Config V} (hc : c.Sound) {i : Id} {l : ListenerId}
    (hadd : c.added? = some (i, l)) : c.state.world.alive i = true := by
  unfold added? at hadd
  split at hadd
  · next a k hfocus =>
    cases a with
    | add name listener =>
      obtain ⟨j, hname, hrest⟩ := Option.bind_eq_some_iff.1 hadd
      obtain ⟨m, _, heq⟩ := Option.map_eq_some_iff.1 hrest
      cases heq
      exact hc.world.alive_of_listened hname
    | _ => cases hadd
  · cases hadd

omit [BEq V] in
/-- Listeners are removed from what is there or was there. -/
theorem Sound.lt_size_of_removed? {c : Config V} (hc : c.Sound) {i : Id} {l : ListenerId}
    (hremove : c.removed? = some (i, l)) : i < c.state.world.objects.size := by
  unfold removed? at hremove
  split at hremove
  · next a k hfocus =>
    cases a with
    | remove name listener =>
      obtain ⟨j, hname, hrest⟩ := Option.bind_eq_some_iff.1 hremove
      obtain ⟨m, _, hlast⟩ := Option.bind_eq_some_iff.1 hrest
      split at hlast
      · cases hlast
        exact hc.world.lt_size_of_numbered hname
      · cases hlast
    | _ => cases hremove
  · cases hremove

/-! ## Runs with their past -/

/-- A run in which all operations from outside are allowed: the configurations that it went through,
latest first, and the one it has come to. -/
inductive Run (allowed : Op V → Prop) : List (Config V) → Config V → Prop
  | start {op : Op V} (hop : allowed op) : Run allowed [] (start {} op)
  | step {past : List (Config V)} {c d : Config V} (hrun : Run allowed past c)
      (hstep : c.step = some d) : Run allowed (c :: past) d
  | perform {past : List (Config V)} {c : Config V} {op : Op V} (hrun : Run allowed past c)
      (hreply : c.reply?.isSome = true) (hop : allowed op) :
    Run allowed (c :: past) (Config.start c.state op)

variable {allowed : Op V → Prop}

theorem Run.reachable {past : List (Config V)} {c : Config V} (hrun : Run allowed past c) :
    Reachable c := by
  induction hrun with
  | start hop => exact .start _
  | step _ hstep ih => exact ih.next (.step hstep)
  | perform _ hreply _ ih => exact ih.next (.perform _ hreply)

theorem Run.sound {past : List (Config V)} {c : Config V} (hrun : Run allowed past c) : c.Sound :=
  hrun.reachable.sound

/-- The configurations that a bounded number of steps goes through, latest first. -/
def trail : Nat → Config V → List (Config V)
  | 0, _ => []
  | n + 1, c =>
    match c.step with
    | none => []
    | some d => trail n d ++ [c]

theorem Run.iterate {past : List (Config V)} {c : Config V} (hrun : Run allowed past c) (n : Nat) :
    Run allowed (c.trail n ++ past) (c.iterate n) := by
  -- A run that has stopped has an empty trail from there on.
  induction n generalizing c past with
  | zero => exact hrun
  | succ n ih =>
    cases hstep : c.step with
    | none => simpa [trail, Config.iterate, hstep] using hrun
    | some d =>
      have hlater := ih (hrun.step hstep)
      simpa [trail, Config.iterate, hstep] using hlater

/-- Everything that a run went through, it once came to. -/
theorem Run.of_append {later before : List (Config V)} {c₀ c : Config V}
    (hrun : Run allowed (later ++ c₀ :: before) c) : Run allowed before c₀ := by
  induction later generalizing c with
  | nil =>
    cases hrun with
    | step hrun _ => exact hrun
    | perform hrun _ _ => exact hrun
  | cons d later ih =>
    cases hrun with
    | step hrun _ => exact ih hrun
    | perform hrun _ _ => exact ih hrun

/-- Everything that a run went through after some moment, it once came to from there. -/
theorem Run.of_mem {later before : List (Config V)} {c d : Config V}
    (hrun : Run allowed (later ++ before) c) (hd : d ∈ later) :
    ∃ inside, Run allowed (inside ++ before) d := by
  obtain ⟨after, inside, rfl⟩ := List.append_of_mem hd
  rw [List.append_assoc] at hrun
  exact ⟨inside, hrun.of_append⟩

theorem Run.mono {allowed' : Op V → Prop} {past : List (Config V)} {c : Config V}
    (hrun : Run allowed past c) (hle : ∀ op, allowed op → allowed' op) : Run allowed' past c := by
  induction hrun with
  | start hop => exact .start (hle _ hop)
  | step _ hstep ih => exact ih.step hstep
  | perform _ hreply hop ih => exact ih.perform hreply (hle _ hop)

/-- A run with some operations from outside is a run. -/
theorem Run.any {past : List (Config V)} {c : Config V}
    (hrun : Run allowed past c) : Run (fun _ => True) past c :=
  hrun.mono fun _ _ => trivial

/-! ## Effects -/

/-- What a step makes of the world. -/
inductive Effect (c : Config V) : World V → Prop
  | same : Effect c c.state.world
  | edit {a : Action V} {k : Stack V .reply} {w : World V}
      (hfocus : c.focus = .operate (.act a) k) (hedit : c.state.world.Edit k.holds a w) :
    Effect c w
  | store {i : Id} {v : V} (hwritten : c.written? = some (i, v)) :
    Effect c (c.state.world.store i v)
  | count {l : ListenerId} : Effect c (c.state.world.alterListener l Listener.counted)
  | send {l : ListenerId} {rest : List Registration} {observed : Id} {old new : V}
      {k : Stack V .round} (hfocus : c.focus = .round (.listener l :: rest) observed old new k) :
    Effect c (c.state.world.alterListener l (Listener.send ⟨old, new⟩))
  | release {w : World V} (houtlived : c.state.world.Outlived w)
      (hlisteners : w.listeners = c.state.world.listeners)
      (hsize : w.objects.size = c.state.world.objects.size) : Effect c w
  | wrap {i : Id} {name : String} {v : V} {convert : V → Script V .converter}
      {k : Stack V .reply} {w : World V}
      (hfocus : c.focus = .run (@Script.stop V .converter v) (.wrapping i name convert k))
      (houtlived : ((c.state.world.register i (.derived c.state.world.objects.size)).create
        (.binding ⟨v, convert, i⟩)).Outlived w)
      (hlisteners : w.listeners = c.state.world.listeners)
      (hsize : w.objects.size = c.state.world.objects.size + 1) : Effect c w

omit [BEq V] in
@[simp] theorem state_fail (s : State V) (e : Error) (k : Stack V .update) :
    (s.fail e k).state = s := by
  unfold State.fail
  split <;> rfl

omit [BEq V] in
/-- A binding that is made is registered with its source and given a name, and nothing else. -/
theorem outlived_wrap (s : State V) (i : Id) (name : String) (convert : V → Script V .converter)
    (v : V) (k : Stack V .reply) :
    ((s.world.register i (.derived s.world.objects.size)).create
      (.binding ⟨v, convert, i⟩)).Outlived (s.wrap i name convert v k).state.world := by
  have hassign := World.outlived_assign
    ((s.world.register i (.derived s.world.objects.size)).create (.binding ⟨v, convert, i⟩))
    (i :: k.holds) name (.binding s.world.objects.size)
  have hrelease := World.outlived_release
    (((s.world.register i (.derived s.world.objects.size)).create
      (.binding ⟨v, convert, i⟩)).assign (i :: k.holds) name (.binding s.world.objects.size))
    k.holds i
  exact hassign.trans hrelease

theorem Effect.of_transition {c d : Config V} (hmove : c.Transition d) :
    c.Effect d.state.world := by
  cases hmove with
  | act s a k => exact .edit rfl (s.world.edit_act k.holds a)
  | setUnknown | setBound | set | notifyUnknown | notify | wrapUnknown | wrap => exact .same
  | resume | emit | perform => exact .same
  | gone | unchanged | reported | announced => exact .same
  | write i hold hne => exact .store (written?_validated i hold hne)
  | reject s i c k =>
    rw [state_fail]
    exact .same
  | announceFailed s i old e k =>
    rw [state_fail]
    exact .same
  | setDone s r i k =>
    exact .release (World.outlived_release ..) (World.listeners_release ..)
      (World.size_objects_release ..)
  | followed s r i k =>
    exact .release (World.outlived_release ..) (World.listeners_release ..)
      (World.size_objects_release ..)
  | wrapped s i name convert v k =>
    have hcreate : (s.world.register i (.derived s.world.objects.size)).objects.size
        = s.world.objects.size := World.size_objects_alter ..
    refine @Effect.wrap V _ _ i name v convert k _ rfl (outlived_wrap s i name convert v k) ?_ ?_
    · exact (World.listeners_release ..).trans (World.listeners_assign ..)
    · refine (World.size_objects_release ..).trans ((World.size_objects_assign ..).trans ?_)
      rw [World.size_objects_create, hcreate]
  | convertedGone v k hgone =>
    exact .release (World.outlived_release ..) (World.listeners_release ..)
      (World.size_objects_release ..)
  | converted v k hold => exact .store (written?_converted hold)
  | recomputed s r i k =>
    exact .release (World.outlived_release ..) (World.listeners_release ..)
      (World.size_objects_release ..)
  | roundDone | callGone | boundGone | deliver | derivedGone | convert => exact .same
  | send rest observed old new k hl => exact .send rfl
  | listen rest observed old new k hl => exact .count
  | listened | listenFailed | called | callFailed => exact .same
  | notified s r i j k =>
    exact .release ((World.outlived_release ..).trans (World.outlived_release ..))
      ((World.listeners_release ..).trans (World.listeners_release ..))
      ((World.size_objects_release ..).trans (World.size_objects_release ..))

/-! ## What objects and listeners keep -/

theorem Effect.size_objects_le {c : Config V} {w : World V} (h : c.Effect w) :
    c.state.world.objects.size ≤ w.objects.size := by
  cases h with
  | same | count | send => exact Nat.le_refl _
  | edit hfocus hedit => exact hedit.size_objects_le
  | store => exact Nat.le_of_eq (World.size_objects_alter ..).symm
  | release _ _ hsize => exact Nat.le_of_eq hsize.symm
  | wrap _ _ _ hsize => omega

theorem Run.size_objects_le {later before : List (Config V)}
    {c₀ c : Config V} (hrun : Run allowed (later ++ c₀ :: before) c) :
    c₀.state.world.objects.size ≤ c.state.world.objects.size := by
  induction later generalizing c with
  | nil =>
    cases hrun with
    | step _ hstep => exact (Effect.of_transition (.of_step hstep)).size_objects_le
    | perform => exact Nat.le_refl _
  | cons d later ih =>
    cases hrun with
    | step hrun hstep =>
      exact Nat.le_trans (ih hrun) (Effect.of_transition (.of_step hstep)).size_objects_le
    | perform hrun => exact ih (c := d) hrun

omit [BEq V] in
theorem body?_wrap (w : World V) (i : Id) (b : Body V) (r : Registration) (j : Id) :
    ((w.register i r).create b).body? j = if j = w.objects.size then some b else w.body? j := by
  have hsize : (w.register i r).objects.size = w.objects.size := World.size_objects_alter ..
  rw [World.body?_create, hsize, World.body?_register]

theorem Effect.shape? {c : Config V} {w : World V} (h : c.Effect w) {i : Id}
    (hlt : i < c.state.world.objects.size) (halive : w.alive i = true) :
    w.shape? i = c.state.world.shape? i := by
  cases h with
  | same | count | send => rfl
  | edit hfocus hedit => exact hedit.shape? hlt halive
  | store => exact World.shape?_store ..
  | release houtlived _ _ =>
    rw [World.shape?_eq_body?, World.shape?_eq_body?, houtlived.body i halive]
  | wrap _ houtlived _ _ =>
    rw [World.shape?_eq_body?, World.shape?_eq_body?, houtlived.body i halive,
      body?_wrap, if_neg (Nat.ne_of_lt hlt)]

/-- Nothing comes back to life. -/
theorem Effect.alive {c : Config V} {w : World V} (h : c.Effect w) {i : Id}
    (hlt : i < c.state.world.objects.size) (halive : w.alive i = true) :
    c.state.world.alive i = true := by
  rw [← World.alive_congr (h.shape? hlt halive)]
  exact halive

/-- What is not written keeps its value. -/
theorem Effect.value? {c : Config V} {w : World V} (h : c.Effect w) {i : Id}
    (hlt : i < c.state.world.objects.size) (halive : w.alive i = true)
    (hwritten : ∀ v, c.written? ≠ some (i, v)) : w.value? i = c.state.world.value? i := by
  cases h with
  | same | count | send => rfl
  | edit hfocus hedit => exact hedit.value? hlt halive
  | @store j v hj =>
    rw [World.value?_store, if_neg]
    rintro rfl
    exact hwritten v hj
  | release houtlived _ _ =>
    rw [World.value?_eq_body?, World.value?_eq_body?, houtlived.body i halive]
  | wrap _ houtlived _ _ =>
    rw [World.value?_eq_body?, World.value?_eq_body?, houtlived.body i halive,
      body?_wrap, if_neg (Nat.ne_of_lt hlt)]

theorem Effect.bind_body? {c : Config V} {w : World V} (h : c.Effect w) {α : Type}
    {part : Body V → Option α} (hpart : Body.IsFixed part) {i : Id}
    (hlt : i < c.state.world.objects.size) (halive : w.alive i = true) :
    (w.body? i).bind part = (c.state.world.body? i).bind part := by
  cases h with
  | same | count | send => rfl
  | edit hfocus hedit => exact hedit.bind_body? hpart hlt halive
  | store => exact World.bind_body?_alter (fun o => hpart.store _ o.body) ..
  | release houtlived _ _ => rw [houtlived.body i halive]
  | wrap _ houtlived _ _ =>
    rw [houtlived.body i halive, body?_wrap, if_neg (Nat.ne_of_lt hlt)]

/-- As long as an object lives, it keeps what is fixed about it. -/
theorem Run.bind_body? {later before : List (Config V)} {c₀ c : Config V}
    (hrun : Run allowed (later ++ c₀ :: before) c) {α : Type} {part : Body V → Option α}
    (hpart : Body.IsFixed part) {i : Id} (hlt : i < c₀.state.world.objects.size)
    (halive : c.state.world.alive i = true) :
    (c.state.world.body? i).bind part = (c₀.state.world.body? i).bind part := by
  induction later generalizing c with
  | nil =>
    cases hrun with
    | step _ hstep => exact (Effect.of_transition (.of_step hstep)).bind_body? hpart hlt halive
    | perform => rfl
  | cons d later ih =>
    cases hrun with
    | step hrun hstep =>
      have heffect := Effect.of_transition (.of_step hstep)
      have hlater := Nat.lt_of_lt_of_le hlt hrun.size_objects_le
      rw [heffect.bind_body? hpart hlater halive]
      exact ih hrun (heffect.alive hlater halive)
    | perform hrun => exact ih (c := d) hrun halive

/-- As long as an object lives, it is what it was. -/
theorem Run.shape?_kept {later before : List (Config V)} {c₀ c : Config V}
    (hrun : Run allowed (later ++ c₀ :: before) c) {i : Id} (hlt : i < c₀.state.world.objects.size)
    (halive : c.state.world.alive i = true) :
    c.state.world.shape? i = c₀.state.world.shape? i := by
  have hfixed : Body.IsFixed (some ∘ Body.shape (V := V)) :=
    ⟨fun v b => congrArg some (Body.shape_store v b),
      fun source b => congrArg some (Body.shape_follow source b)⟩
  have hkept := hrun.bind_body? hfixed hlt halive
  rw [World.shape?_eq_body?, World.shape?_eq_body?, Option.map_eq_bind, Option.map_eq_bind]
  exact hkept

/-- A list keeps its listeners, unless one is added or removed. -/
theorem Effect.respliced {c : Config V} {w : World V} (h : c.Effect w) {i : Id}
    (halive : w.alive i = true) (hadd : ∀ l, c.added? ≠ some (i, l))
    (hremove : ∀ l, c.removed? ≠ some (i, l)) :
    Respliced (c.state.world.registrations i) (w.registrations i) := by
  cases h with
  | same | count | send => exact .refl _
  | edit hfocus hedit =>
    apply hedit.respliced halive
    · intro l hl
      apply hadd l
      rw [added?, hfocus]
      exact hl
    · intro l hl
      apply hremove l
      rw [removed?, hfocus]
      exact hl
  | store => exact .of_eq (World.registrations_store ..)
  | release houtlived _ _ => exact houtlived.registrations i halive
  | @wrap j name v convert k w _ houtlived _ _ =>
    have henter : Respliced (c.state.world.registrations i)
        ((c.state.world.register j (.derived c.state.world.objects.size)).registrations i) :=
      World.respliced_register _ j i rfl
    refine henter.trans ?_
    refine .trans (.of_eq ?_) (houtlived.registrations i halive)
    exact World.registrations_create ..

/-- A live list gets a listener at its end, loses one, or keeps all of them. -/
theorem registrations_of_step {c d : Config V} (hc : c.Sound) (hstep : c.step = some d) {i : Id}
    (halive : d.state.world.alive i = true) :
    (∃ l, c.added? = some (i, l) ∧
      d.state.world.registrations i = c.state.world.registrations i ++ [.listener l]) ∨
    (∃ l, c.removed? = some (i, l) ∧
      d.state.world.registrations i = (c.state.world.registrations i).erase (.listener l)) ∨
    ((∀ l, c.added? ≠ some (i, l)) ∧ (∀ l, c.removed? ≠ some (i, l)) ∧
      Respliced (c.state.world.registrations i) (d.state.world.registrations i)) := by
  by_cases hadd : ∃ l, c.added? = some (i, l)
  · obtain ⟨l, hl⟩ := hadd
    refine .inl ⟨l, hl, ?_⟩
    rw [register_of_added? hstep hl,
      World.registrations_register _ _ _ _ (hc.alive_of_added? hl), if_pos rfl]
  · by_cases hremove : ∃ l, c.removed? = some (i, l)
    · obtain ⟨l, hl⟩ := hremove
      refine .inr (.inl ⟨l, hl, ?_⟩)
      rw [unregister_of_removed? hstep hl, World.registrations_unregister, if_pos rfl]
    · have hnotadded : ∀ l, c.added? ≠ some (i, l) := fun l hl => hadd ⟨l, hl⟩
      have hnotremoved : ∀ l, c.removed? ≠ some (i, l) := fun l hl => hremove ⟨l, hl⟩
      have heffect := Effect.of_transition (.of_step hstep)
      exact .inr (.inr ⟨hnotadded, hnotremoved,
        heffect.respliced halive hnotadded hnotremoved⟩)

/-- A channel keeps what was sent through it, unless it is sent something more. -/
theorem Effect.sent? {c : Config V} {w : World V} (h : c.Effect w) {l : ListenerId}
    (hcall : ∀ rest observed old new k, c.focus ≠ .round (.listener l :: rest) observed old new k) :
    w.sent? l = c.state.world.sent? l ∨
      (c.state.world.sent? l = none ∧ w.sent? l = some []) := by
  cases h with
  | same | store => exact .inl rfl
  | edit hfocus hedit => exact hedit.sent? l
  | @count m =>
    left
    apply World.sent?_alterListener_of_same
    intro x
    cases x <;> rfl
  | @send m rest observed old new k hfocus =>
    left
    rw [World.sent?_alterListener, if_neg]
    rintro rfl
    exact hcall _ _ _ _ _ hfocus
  | release _ hlisteners _ => exact .inl (World.sent?_congr hlisteners l)
  | wrap _ _ hlisteners _ => exact .inl (World.sent?_congr hlisteners l)

/-! ## Listeners that are registered -/

theorem Effect.grown_listeners {c : Config V} {w : World V} (h : c.Effect w) :
    c.state.world.listeners.Grown w.listeners := by
  cases h with
  | same | store => exact Table.grown_of_eq rfl
  | edit _ hedit => exact hedit.grown_listeners
  | count | send => exact Table.grown_modify _ _ _
  | release _ hlisteners _ | wrap _ _ hlisteners _ => exact Table.grown_of_eq hlisteners

theorem Run.grown_listeners {later before : List (Config V)} {c₀ c : Config V}
    (hrun : Run allowed (later ++ c₀ :: before) c) :
    c₀.state.world.listeners.Grown c.state.world.listeners := by
  induction later generalizing c with
  | nil =>
    cases hrun with
    | step _ hstep => exact (Effect.of_transition (.of_step hstep)).grown_listeners
    | perform => exact Table.grown_of_eq rfl
  | cons d later ih =>
    cases hrun with
    | step hrun hstep =>
      exact (ih hrun).trans (Effect.of_transition (.of_step hstep)).grown_listeners
    | perform hrun => exact ih (c := d) hrun

theorem Run.full_listeners {past : List (Config V)} {c : Config V} (hrun : Run allowed past c) :
    c.state.world.listeners.Full := by
  induction hrun with
  | start => exact Table.full_empty
  | step _ hstep ih => exact (Effect.of_transition (.of_step hstep)).grown_listeners.full ih
  | perform _ _ _ ih => exact ih

omit [BEq V] in
theorem Sound.lt_size_of_added? {c : Config V} (hc : c.Sound) {i : Id} {l : ListenerId}
    (hadd : c.added? = some (i, l)) : l < c.state.world.listeners.size := by
  unfold added? at hadd
  split at hadd
  · next a k hfocus =>
    cases a with
    | add name listener =>
      obtain ⟨j, _, hrest⟩ := Option.bind_eq_some_iff.1 hadd
      obtain ⟨x, hx, heq⟩ := Option.map_eq_some_iff.1 hrest
      cases heq
      obtain ⟨h, hfind, hl⟩ := World.names_find?_of_find? hx
      have hsupports := hc.world.names listener h hfind
      cases h with
      | listener => cases hl; exact hsupports
      | _ => cases hl
    | _ => cases hadd
  · cases hadd

/-- What a list has registered as a listener is one. -/
theorem Run.lt_size_of_registered {past : List (Config V)} {c : Config V}
    (hrun : Run allowed past c) {i : Id} {a : ListenerId}
    (hmem : .listener a ∈ c.state.world.registrations i) :
    a < c.state.world.listeners.size := by
  induction hrun with
  | start => exact absurd hmem (by simp [Config.start, World.registrations, World.object?,
      Table.get?])
  | perform _ _ _ ih => exact ih hmem
  | @step past c d hrun hstep ih =>
    refine Nat.lt_of_lt_of_le ?_ (Effect.of_transition (.of_step hstep)).grown_listeners.size
    have halive := World.alive_of_mem_registrations hmem
    obtain ⟨l, hadd, heq⟩ | ⟨l, _, heq⟩ | ⟨_, _, hkept⟩ :=
      registrations_of_step hrun.sound hstep halive
    · rw [heq, List.mem_append, List.mem_singleton] at hmem
      rcases hmem with hmem | hmem
      · exact ih hmem
      · cases hmem
        exact hrun.sound.lt_size_of_added? hadd
    · rw [heq] at hmem
      exact ih (List.mem_of_mem_erase hmem)
    · exact ih (hkept.mem_listener hmem)

/-- A listener that was registered at some moment is there from then on. -/
theorem Run.listener_of_registered {later before : List (Config V)} {c₀ c : Config V}
    (hrun : Run allowed (later ++ c₀ :: before) c) {i : Id} {a : ListenerId}
    (hmem : .listener a ∈ c₀.state.world.registrations i) :
    ∃ x, c.state.world.listeners.get? a = some x :=
  Option.isSome_iff_exists.1 (hrun.full_listeners a
    (Nat.lt_of_lt_of_le (hrun.of_append.lt_size_of_registered hmem) hrun.grown_listeners.size))

end Config

end Observable
