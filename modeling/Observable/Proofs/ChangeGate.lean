import Observable.Proofs.Updates
import Observable.Proofs.Validation

/-!
# The change gate

A call of `set` on a free property passes a gate: the validator may reject the value, and a
validated value that equals the stored one is not written. Equality is whatever the type of values
has, so a value may differ from itself, and equal values may be told apart. The validator may write
the property before it answers, and listeners may write it again before `set` returns; the call
compares with what is stored when its validator answers, announces what it writes once, and returns
what it replaced (`Config.Run.gated`).

The answer on which this depends is that of the property's own validator, called on the value that
the call was given: nothing else happens at the depth of the call until it answers
(`Config.Judged`).
-/

namespace Observable

variable {V : Type} [BEq V]

/-- How an update that has done all this ends. -/
inductive Record.Yields (done : Record V) : Except Error V → Prop
  /-- The validator rejected the value, so nothing was written or announced. -/
  | rejected {o : V} {cause : Cause} (hverdicts : done.verdicts = [(o, .error cause)])
      (hchanges : done.changes = []) (hends : done.ends = []) :
    Yields done (.error (cause.during .validation))
  /-- The validated value equals the stored one, so nothing was written or announced. -/
  | equal {o w : V} (hverdicts : done.verdicts = [(o, .ok w)]) (heq : (o == w) = true)
      (hchanges : done.changes = []) (hends : done.ends = []) : Yields done (.ok o)
  /-- The validated value was written and announced once, and the round ended well. -/
  | announced {o w : V} (hverdicts : done.verdicts = [(o, .ok w)]) (hne : (o == w) = false)
      (hchanges : done.changes = [⟨o, w⟩]) (hends : done.ends = [.ok ()]) : Yields done (.ok o)
  /-- The validated value was written and announced once, and the round failed. -/
  | failed {o w : V} {e : Error} (hverdicts : done.verdicts = [(o, .ok w)])
      (hne : (o == w) = false) (hchanges : done.changes = [⟨o, w⟩])
      (hends : done.ends = [.error e]) : Yields done (.error e)

namespace Config

/-- What has happened last decides how the update over the frames of `k` ends. -/
inductive Decides (c : Config V) (k : Stack V .update) : Except Error V → Prop
  | rejected {o : V} {cause : Cause} (hverdict : c.verdict? = some ((o, .error cause), k)) :
    Decides c k (.error (cause.during .validation))
  | equal {o w : V} (hverdict : c.verdict? = some ((o, .ok w), k)) (heq : (o == w) = true) :
    Decides c k (.ok o)
  | announced {i : Id} {o : V} (hfocus : c.focus = .rounded (.ok ()) (.updating i o k)) :
    Decides c k (.ok o)
  | failed {i : Id} {o : V} {e : Error} (hfocus : c.focus = .rounded (.error e) (.updating i o k)) :
    Decides c k (.error e)

/-! ## Verdicts and changes -/

omit [BEq V] in
theorem focus_of_verdict? {c : Config V} {o : V} {a : Except Cause V} {k : Stack V .update}
    (hverdict : c.verdict? = some ((o, a), k)) :
    (∃ i, c.focus = .run (@Script.stop V .validator a) (.validating i k)) ∧
      c.state.world.value? k.updated = some o := by
  unfold verdict? at hverdict
  split at hverdict
  · next a' i k' hfocus =>
    obtain ⟨old, hold, heq⟩ := Option.map_eq_some_iff.1 hverdict
    cases heq
    exact ⟨⟨i, hfocus⟩, hold⟩
  · cases hverdict

theorem focus_of_change? {c : Config V} {o w : V} {k : Stack V .update}
    (hchange : c.change? = some (⟨o, w⟩, k)) :
    (∃ i, c.focus = .run (@Script.stop V .validator (.ok w)) (.validating i k)) ∧
      c.state.world.value? k.updated = some o ∧ (o == w) = false := by
  unfold change? at hchange
  split at hchange
  · next new i k' hfocus =>
    obtain ⟨old, hold, heq⟩ := Option.map_eq_some_iff.1 hchange
    cases heq
    obtain ⟨hold, hne⟩ := Option.filter_eq_some_iff.1 hold
    exact ⟨⟨i, hfocus⟩, hold, by simpa using hne⟩
  · cases hchange

/-- A change is written and announced in one step. -/
theorem announced_of_change? {c : Config V} {o w : V} {k : Stack V .update}
    (hchange : c.change? = some (⟨o, w⟩, k)) :
    c.written? = some (k.updated, w) ∧ c.state.world.value? k.updated = some o ∧
      ∃ s, c.step = some ⟨s, .round (s.world.registrations k.updated) k.updated o w
          (.updating k.updated o k)⟩ ∧
        s.world = c.state.world.store k.updated w ∧ s.world.value? k.updated = some w := by
  obtain ⟨⟨i, hfocus⟩, hold, hne⟩ := focus_of_change? hchange
  obtain ⟨s, f⟩ := c
  cases hfocus
  have hstep : step ⟨s, .run (@Script.stop V .validator (.ok w)) (.validating i k)⟩ =
      some (s.commit w k) := rfl
  rw [commit_eq hold w, if_neg (by simp [hne])] at hstep
  rw [← World.registrations_store s.world k.updated k.updated w] at hstep
  exact ⟨written?_validated i hold hne, hold, _, hstep, rfl, World.value?_store_self hold w⟩

/-- The first listener of the round is called next, and it reads what was written. -/
theorem listens_of_change? {c d : Config V} {o w : V} {k : Stack V .update}
    (hchange : c.change? = some (⟨o, w⟩, k)) (hstep : c.step = some d) {l : ListenerId}
    {rest : List Registration} (hall : d.state.world.registrations k.updated = .listener l :: rest)
    {calls : Nat} {body : Call V → Script V .listener}
    (hl : d.state.world.listeners.get? l = some (.callback calls body)) :
    ∃ s, d.step = some ⟨s, .run (body ⟨calls, k.updated, w, o, w⟩)
        (.listening (.round rest k.updated o w (.updating k.updated o k)))⟩ ∧
      s.world.value? k.updated = some w := by
  obtain ⟨_, _, s, hnext, _, hvalue⟩ := announced_of_change? hchange
  rw [hstep] at hnext
  cases hnext
  refine ⟨{ s with world := s.world.alterListener l Listener.counted }, ?_, hvalue⟩
  rw [hall]
  simp [step, State.call, hl, hvalue]

/-- The rounds that an update begins are about the changes that it writes. -/
theorem change?_of_round {c d : Config V} (hstep : c.step = some d) {all : List Registration}
    {observed i : Id} {o old new : V} {k : Stack V .update}
    (hfocus : d.focus = .round all observed old new (.updating i o k))
    (hnew : ¬ c.Waits (.updating i o k)) : c.change? = some (⟨old, new⟩, k) := by
  cases Transition.of_step hstep with
  | called =>
    cases hfocus
    exact absurd (List.mem_cons_of_mem _ (Stack.mem_tails_self _)) hnew
  | write j hold hne =>
    cases hfocus
    simp [change?, hold, hne]
  | reject | announceFailed =>
    exact absurd hfocus (State.fail_cases
      (P := fun d => d.focus ≠ .round all observed old new (.updating i o k)) (fun h => by cases h)
      fun _ _ _ _ h => by cases h)
  | _ => cases hfocus

/-- A value that is written stays until another one is. -/
theorem Run.value?_of_written? {allowed : Op V → Prop} {later before : List (Config V)}
    {c₀ c : Config V} (hrun : Run allowed (later ++ c₀ :: before) c) {i : Id} {w : V}
    (hwritten : c₀.written? = some (i, w)) (hlater : ∀ d ∈ later, ∀ x, d.written? ≠ some (i, x))
    {x : V} (hx : c.state.world.value? i = some x) : x = w := by
  obtain ⟨old, hold, _⟩ := written?_cases hwritten
  have hlt := World.lt_size_of_alive (World.alive_of_value? hold)
  induction later generalizing c with
  | nil =>
    cases hrun with
    | step _ hstep =>
      exact Option.some.inj (hx.symm.trans (Config.value?_of_written? hstep hwritten))
    | perform _ hreply _ =>
      obtain ⟨r, hfocus⟩ := isSome_reply?_iff.1 hreply
      rw [written?, hfocus] at hwritten
      cases hwritten
  | cons d later ih =>
    have hrest : ∀ d ∈ later, ∀ x, d.written? ≠ some (i, x) :=
      fun d hd => hlater d (List.mem_cons_of_mem _ hd)
    cases hrun with
    | step hrun hstep =>
      have hkept := (Effect.of_transition (.of_step hstep)).value?
        (Nat.lt_of_lt_of_le hlt hrun.size_objects_le) (World.alive_of_value? hx)
        (hlater d List.mem_cons_self)
      exact ih hrun hrest (hkept.symm.trans hx)
    | perform hrun _ _ => exact ih (c := d) hrun hrest hx

/-! ## Returning -/

/-- Once it is decided how an update ends, nothing but the reporter is called before its result is
returned. -/
theorem Decides.leads {c : Config V} (hc : c.Sound) {k : Stack V .update} {r : Except Error V}
    (hdecides : c.Decides k r) :
    ∃ d, c.step = some d ∧
      ((∃ s, d.Leads ⟨s, k.given r⟩) ∨ ∃ e, r = .error e ∧ d.Stuck e k) := by
  have hfailing : ∀ {e}, c.failing? = some (e, k) → ∃ d, c.step = some d ∧
      ((∃ s, d.Leads ⟨s, k.given (.error e)⟩) ∨ ∃ e', .error e = (.error e' : Except Error V) ∧
        d.Stuck e' k) := by
    intro e he
    obtain ⟨p, _, hstep⟩ := hc.step_of_failed (failing?_cases he)
    exact ⟨_, hstep, (hc.fails_of_step hstep he).leads.imp_right fun h => ⟨e, rfl, h⟩⟩
  cases hdecides with
  | @rejected o cause hverdict =>
    obtain ⟨⟨i, hfocus⟩, _⟩ := focus_of_verdict? hverdict
    exact hfailing (by simp [failing?, hfocus])
  | @equal o w hverdict heq =>
    obtain ⟨⟨i, hfocus⟩, hold⟩ := focus_of_verdict? hverdict
    obtain ⟨o', hold', ⟨_, hstep⟩ | ⟨hne, _⟩⟩ := hc.step_of_validated hfocus
    · rw [hold] at hold'
      cases hold'
      exact ⟨_, hstep, .inl (leads_of_updated rfl)⟩
    · rw [hold] at hold'
      cases hold'
      rw [heq] at hne
      cases hne
  | @announced i o hfocus =>
    have hstep : c.step = some ⟨c.state, .updated (.ok o) k⟩ := by
      rw [step, hfocus]
      rfl
    exact ⟨_, hstep, .inl (leads_of_updated rfl)⟩
  | failed hfocus => exact hfailing (by simp [failing?, hfocus])

/-- A call of `set` returns what its update yields. -/
theorem Course.yields {c : Config V} {hasReporter : Bool} {i : Id} {k : Stack V .reply}
    {done : Record V} (hc : c.Course hasReporter (.setting i k) done) {q : Reply V}
    (hreply : c.focus = .reply q k) : ∃ r, q = .ofUpdate r ∧ done.Yields r := by
  have habove : ∀ {a : Awaits} {l : Stack V a}, ⟨_, .setting i k⟩ ∈ l.tails → ¬ c.Waits l := by
    intro a l hl hwaits
    have hsetting := Stack.mem_tails_trans hwaits hl
    rw [hreply] at hsetting
    exact Stack.setting_not_mem_tails i k hsetting
  have hended : ∀ {r}, c.Ended r (.setting i k) → q = .ofUpdate r := by
    intro r h
    rcases h with h | h
    · cases hreply.symm.trans h
    · cases hreply.symm.trans h
      rfl
  have hfails : ∀ {e reports}, c.Fails hasReporter e (.setting i k) reports →
      q = .ofUpdate (.error e) := by
    intro e reports h
    cases h with
    | telling _ hwaits => exact absurd hwaits (habove (List.mem_cons_of_mem _ List.mem_cons_self))
    | ended h => exact hended h
  cases hc with
  | validating hwaits | announcing _ hwaits =>
    exact absurd hwaits (habove (List.mem_cons_of_mem _ List.mem_cons_self))
  | rejected h => exact ⟨_, hfails h, .rejected rfl rfl rfl⟩
  | equal heq h _ => exact ⟨_, hended h, .equal rfl heq rfl rfl⟩
  | announced hne h => exact ⟨_, hended h, .announced rfl hne rfl rfl⟩
  | failed hne h => exact ⟨_, hfails h, .failed rfl hne rfl rfl⟩

/-! ## The validator -/

omit [BEq V] in
/-- The validator that was called for the update over the frames of `k`, and was to run `script`,
has waited until it answered `a`; the value `o` was stored then. -/
def Judged (later : List (Config V)) (script : Script V .validator) (k : Stack V .update) (o : V)
    (a : Except Cause V) : Prop :=
  ∃ after e inside, later = after ++ e :: inside ∧
    (∀ d ∈ inside, d.Waits (.validating k.updated k)) ∧
    e.focus = .run (@Script.stop V .validator a) (.validating k.updated k) ∧
    e.state.world.value? k.updated = some o ∧ @Script.Ends V .validator script a

/-- The validator has not answered, or it has been judged by its answer. -/
inductive Judging (later : List (Config V)) (c : Config V) (script : Script V .validator)
    (k : Stack V .update) : Prop
  | running (hruns : c.Runs script (.validating k.updated k))
      (hwaits : ∀ d ∈ c :: later, d.Waits (.validating k.updated k))
      (hnone : (record k later).verdicts = [])
  | answered {o : V} {a : Except Cause V} (hmem : (o, a) ∈ (record k later).verdicts)
      (hjudged : Judged later script k o a)

omit [BEq V] in
theorem Judged.cons {later : List (Config V)} {script : Script V .validator} {k : Stack V .update}
    {o : V} {a : Except Cause V} (h : Judged later script k o a) (c : Config V) :
    Judged (c :: later) script k o a := by
  obtain ⟨after, e, inside, rfl, hrest⟩ := h
  exact ⟨c :: after, e, inside, rfl, hrest⟩

theorem verdicts_cons (k : Stack V .update) (c : Config V) (later : List (Config V)) :
    (record k (c :: later)).verdicts = (record k later).verdicts ++ (c.does k).verdicts := rfl

theorem verdicts_of_answer {c : Config V} {i : Id} {k : Stack V .update} {a : Except Cause V}
    {o : V} (hfocus : c.focus = .run (@Script.stop V .validator a) (.validating i k))
    (hold : c.state.world.value? k.updated = some o) : (c.does k).verdicts = [(o, a)] := by
  simp [does, verdict?, hfocus, hold]

theorem Judging.next {later : List (Config V)} {c d : Config V} {script : Script V .validator}
    {k : Stack V .update} (hc : Judging later c script k) (hsound : c.Sound)
    (hstep : c.step = some d) : Judging (c :: later) d script k := by
  have hmove := Transition.of_step hstep
  cases hc with
  | running hruns hwaits hnone =>
    have hhere := hwaits c List.mem_cons_self
    rcases hmove.waits_answer hhere with ⟨a, hfocus⟩ | ⟨hopen, hstill⟩
    · obtain ⟨o, hold⟩ := value?_of_acts hsound (.answer hfocus)
      have hverdicts : (record k (c :: later)).verdicts = [(o, a)] := by
        rw [verdicts_cons, hnone, verdicts_of_answer hfocus hold]
        rfl
      refine .answered (o := o) (a := a) (by rw [hverdicts]; exact List.mem_cons_self) ?_
      exact ⟨[], c, later, rfl, fun e he => hwaits e (List.mem_cons_of_mem _ he), hfocus, hold,
        hruns.ends hfocus⟩
    · refine .running (hruns.transition hmove hstill) (fun e he => ?_) ?_
      · rcases List.mem_cons.1 he with rfl | he
        · exact hstill
        · exact hwaits e he
      · rw [verdicts_cons, hnone, does_of_validating hhere hopen]
        rfl
  | answered hmem hjudged =>
    refine .answered ?_ (hjudged.cons c)
    rw [verdicts_cons]
    exact List.mem_append_left _ hmem

/-- The verdict on an update is what the property's validator answers, called on the value that the
update was given. -/
theorem Run.judging {allowed : Op V → Prop} {later before : List (Config V)} {b c : Config V}
    (hrun : Run allowed (later ++ b :: before) c) {p : Property V} {v : V} {k : Stack V .update}
    (hb : b.Begins p v k) : Judging later c (p.validate v) k := by
  obtain ⟨_, hstep⟩ := hb.step
  refine hrun.after (P := fun later c => Judging later c (p.validate v) k) hstep ?_ ?_ ?_
  · refine .running (.inl ⟨_, rfl, fun _ => id⟩) (fun d hd => ?_) rfl
    rw [List.mem_singleton.1 hd]
    exact Stack.mem_tails_self _
  · exact fun past c d hrun hc hnext => hc.next hrun.sound hnext
  · intro past c op hrun hc hreply
    cases hc with
    | running _ hwaits _ => cases (hwaits c List.mem_cons_self).eq_idle hreply
    | answered hmem hjudged =>
      refine .answered ?_ (hjudged.cons c)
      rw [verdicts_cons]
      exact List.mem_append_left _ hmem

theorem Judging.judged {later : List (Config V)} {c : Config V} {script : Script V .validator}
    {k : Stack V .update} (hc : Judging later c script k) {o : V} {a : Except Cause V}
    (hverdicts : (record k later).verdicts = [(o, a)]) : Judged later script k o a := by
  cases hc with
  | running _ _ hnone =>
    rw [hverdicts] at hnone
    cases hnone
  | answered hmem hjudged =>
    rw [hverdicts] at hmem
    cases List.mem_singleton.1 hmem
    exact hjudged

/-- What is rejected, and what equals the stored value, changes nothing. -/
theorem Sound.spares {c : Config V} (hc : c.Sound) {o : V} {a : Except Cause V}
    {k : Stack V .update} (hverdict : c.verdict? = some ((o, a), k))
    (hequal : ∀ w, a = .ok w → (o == w) = true) : ∃ d, c.step = some d ∧ d.state = c.state := by
  obtain ⟨⟨i, hfocus⟩, hold⟩ := focus_of_verdict? hverdict
  cases a with
  | error cause =>
    obtain ⟨s, f⟩ := c
    cases hfocus
    exact ⟨_, rfl, state_fail ..⟩
  | ok w =>
    obtain ⟨o', hold', ⟨_, hstep⟩ | ⟨hne, _⟩⟩ := hc.step_of_validated hfocus
    · exact ⟨_, hstep, rfl⟩
    · cases hold.symm.trans hold'
      rw [hequal w rfl] at hne
      cases hne

/-! ## Calls of `set` -/

/-- A value that is not written because it equals the stored one leaves that in its place. -/
theorem Course.same {c : Config V} {hasReporter : Bool} {k : Stack V .update} {done : Record V}
    (hc : c.Course hasReporter k done) {o w : V} (hverdicts : done.verdicts = [(o, .ok w)])
    (heq : (o == w) = true) {x : V} (hx : c.state.world.value? k.updated = some x) : x = o := by
  cases hc with
  | validating | rejected => cases hverdicts
  | equal _ _ hvalue =>
    cases hverdicts
    exact hvalue x hx
  | announcing hne | announced hne | failed hne =>
    cases hverdicts
    rw [heq] at hne
    cases hne

omit [BEq V] in
/-- A call of `set` that finds the property free begins its update. -/
theorem Sound.begins_set {c : Config V} (hc : c.Sound) {name : String} {v : V} {k : Stack V .reply}
    {i : Id} (hfocus : c.focus = .operate (.set name v) k)
    (hname : c.state.world.find? name Handle.property? = some i)
    (hfree : c.state.world.isBound i = false) : ∃ p, c.Begins p v (.setting i k) := by
  obtain ⟨p, hp⟩ := World.shape?_eq_property_iff.1 (hc.world.shape?_of_property hname)
  have hsource : p.source = none := by
    rw [World.isBound_of_property? hp] at hfree
    simpa using hfree
  exact ⟨p, .set hfocus hname hp hsource⟩

/-- How a call of `set` to `v` over the frames of `k`, which found the property `i` free at `c₀`,
has passed the gate; `later` goes back to the beginning of the call. -/
structure Gated (c c₀ : Config V) (later : List (Config V)) (i : Id) (v : V)
    (k : Stack V .reply) : Prop where
  /-- The property's validator is called on the value, and the verdict is what it answers. -/
  validated : ∃ p, c₀.state.world.property? i = some p ∧
    c₀.step = some ⟨c₀.state, .run (p.validate v) (.validating i (.setting i k))⟩ ∧
    ∀ o a, (record (.setting i k) later).verdicts = [(o, a)] →
      Judged later (p.validate v) (.setting i k) o a
  /-- What the validator answers and what is stored then decide whether anything is written and
  announced; before that nothing is. -/
  course : ∃ hasReporter, c.Course hasReporter (.setting i k) (record (.setting i k) later)
  /-- What the call returns. -/
  returned : ∀ q, c.focus = .reply q k →
    ∃ r, q = .ofUpdate r ∧ (record (.setting i k) later).Yields r
  /-- It does return, unless it fails and the property's reporter never ends. -/
  returns : ∀ r, c.Decides (.setting i k) r → ∃ d, c.step = some d ∧
    ((∃ s, d.Leads ⟨s, .reply (.ofUpdate r) k⟩) ∨ ∃ e, r = .error e ∧ d.Stuck e (.setting i k))
  /-- What is rejected, and what equals the stored value, changes nothing. -/
  spared : ∀ o a, c.verdict? = some ((o, a), .setting i k) → (∀ w, a = .ok w → (o == w) = true) →
    ∃ d, c.step = some d ∧ d.state = c.state
  /-- What is written is announced in the same step. -/
  announced : ∀ o w, c.change? = some (⟨o, w⟩, .setting i k) →
    c.state.world.value? i = some o ∧
      ∃ s, c.step = some ⟨s, .round (s.world.registrations i) i o w
          (.updating i o (.setting i k))⟩ ∧
        s.world = c.state.world.store i w ∧ s.world.value? i = some w
  /-- The first listener is called in the next step, and it reads what was written. -/
  listens : ∀ o w d l rest calls body, c.change? = some (⟨o, w⟩, .setting i k) → c.step = some d →
    d.state.world.registrations i = .listener l :: rest →
    d.state.world.listeners.get? l = some (.callback calls body) →
    ∃ s, d.step = some ⟨s, .run (body ⟨calls, i, w, o, w⟩)
        (.listening (.round rest i o w (.updating i o (.setting i k))))⟩ ∧
      s.world.value? i = some w
  /-- The call begins no other round. -/
  rounds : ∀ d all observed old new o, c.step = some d →
    d.focus = .round all observed old new (.updating i o (.setting i k)) →
    ¬ c.Waits (.updating i o (.setting i k)) → c.change? = some (⟨old, new⟩, .setting i k)
  /-- Only what is written changes the stored value. -/
  unwritten : ∀ d x, c.step = some d → (∀ w, c.written? ≠ some (i, w)) →
    d.state.world.value? i = some x → c.state.world.value? i = some x
  /-- What the call has written stays until something else is written. -/
  kept : ∀ after d before o w, later = after ++ d :: before →
    d.change? = some (⟨o, w⟩, .setting i k) → (∀ e ∈ after, ∀ x, e.written? ≠ some (i, x)) →
    ∀ x, c.state.world.value? i = some x → x = w
  /-- If nothing was written because it was equal, then the stored value is still itself. -/
  same : ∀ o w, (record (.setting i k) later).verdicts = [(o, .ok w)] → (o == w) = true →
    ∀ x, c.state.world.value? i = some x → x = o

/-- In every run, whatever callbacks do and whatever equality is, every call of `set` on a free
property passes the gate as `Gated` says. -/
theorem Run.gated {allowed : Op V → Prop} {later before : List (Config V)} {c₀ c : Config V}
    (hrun : Run allowed (later ++ c₀ :: before) c) {name : String} {v : V} {k : Stack V .reply}
    {i : Id} (hfocus : c₀.focus = .operate (.set name v) k)
    (hname : c₀.state.world.find? name Handle.property? = some i)
    (hfree : c₀.state.world.isBound i = false) (hopen : ∀ d ∈ later, ∀ r, d.focus ≠ .reply r k) :
    c.Gated c₀ later i v k := by
  obtain ⟨p, hbegins⟩ := hrun.of_append.sound.begins_set hfocus hname hfree
  obtain ⟨hp, hcalled⟩ := hbegins.step
  have hc := hrun.course_of_begins hbegins fun d hd r => hopen d hd _
  constructor
  case validated => exact ⟨p, hp, hcalled, fun o a => (hrun.judging hbegins).judged⟩
  case course => exact ⟨_, hc⟩
  case returned => exact fun q hreply => hc.yields hreply
  case returns => exact fun r hdecides => hdecides.leads hrun.sound
  case spared => exact fun o a hverdict hequal => hrun.sound.spares hverdict hequal
  case announced =>
    intro o w hchange
    obtain ⟨_, hold, hnext⟩ := announced_of_change? hchange
    exact ⟨hold, hnext⟩
  case listens =>
    exact fun o w d l rest calls body hchange hstep hall hl =>
      listens_of_change? hchange hstep hall hl
  case rounds => exact fun d all observed old new o hstep hround => change?_of_round hstep hround
  case unwritten =>
    intro d x hstep hnone hx
    have hlt := Nat.lt_of_lt_of_le
      (World.lt_size_of_alive (World.alive_of_value? (World.value?_of_property? hp)))
      hrun.size_objects_le
    exact ((Effect.of_transition (.of_step hstep)).value? hlt (World.alive_of_value? hx)
      hnone).symm.trans hx
  case kept =>
    rintro after d before' o w rfl hchange hafter x hx
    rw [List.append_assoc] at hrun
    exact hrun.value?_of_written? (announced_of_change? hchange).1 hafter hx
  case same =>
    intro o w hverdicts heq x hx
    exact hc.same hverdicts heq hx

/-- A listener sets the property once more inside the round and then fails. The call has announced
its own change once and returns the failure; the inner call's value stays. -/
theorem gated_reentrant : ∃ (later before : List (Config Nat)) (c₀ c : Config Nat),
    Run (fun _ => True) (later ++ c₀ :: before) c ∧ c₀.focus = .operate (.set "p" 1) .idle ∧
      c₀.state.world.find? "p" Handle.property? = some 0 ∧ c₀.state.world.isBound 0 = false ∧
      (∀ d ∈ later, ∀ r, d.focus ≠ .reply r .idle) ∧
      (record (.setting 0 .idle) later).verdicts = [(0, .ok 1)] ∧
      (record (.setting 0 .idle) later).changes = [⟨0, 1⟩] ∧
      c.focus = .reply (.failed (.failed .listener "no")) .idle ∧
      c.state.world.value? 0 = some 2 ∧ c.Gated c₀ later 0 1 .idle := by
  have hproperty : Run (fun _ => True) _
      (start {} (.act (.property "p" 0 (fun v => .stop (.ok v)) none))) := .start trivial
  have hlistener : Run (fun _ => True) _ (start _ (.act (.listener "l" fun call =>
      if call.new = 1 then .perform (.set "p" 2) fun _ => .stop (.error (.text "no"))
      else .stop (.ok ())))) := (hproperty.step rfl).perform rfl trivial
  have hadd : Run (fun _ => True) _ (start _ (.act (.add "p" "l"))) :=
    (hlistener.step rfl).perform rfl trivial
  have hset : Run (fun _ => True) _ (start _ (.set "p" 1)) :=
    (hadd.step rfl).perform rfl trivial
  have hlast := (hset.step rfl).iterate 16
  refine ⟨_, _, _, _, hlast, rfl, rfl, rfl, ?hopen, rfl, rfl, rfl, rfl,
    hlast.gated rfl rfl rfl ?hopen⟩
  intro d hd r hfocus
  have hinside := (List.all_eq_true (p := fun d : Config Nat => d.reply?.isNone)).1 (by rfl) d hd
  rw [reply?_eq_some_iff.2 hfocus] at hinside
  cases hinside

end Config

end Observable
