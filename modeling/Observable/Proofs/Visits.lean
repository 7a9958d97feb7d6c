import Observable.Proofs.Announcements
import Observable.Proofs.FirstObserver
import Observable.Proofs.Nesting
import Observable.Proofs.Rebinding
import Observable.Proofs.Walk

/-!
# A change visits every object at most once

In a quiet run, setting a free property comes to an end, and on the way nothing is computed, written
or announced twice (`Config.Run.set_visits`): the validator of the property runs once, every other
validator and every converter at most once, whatever is bound to whatever. Properties that are bound
in a circle are not reached at all.

The argument counts what can still come for an object. The objects above it form a line, and a round
of one of them is about to call the next one at most once (`World.Linked.countP_among_le`). So
`Config.due`, the number of calls that are still to be made of the object or of one above it, is not
increased by any step, and a step that calls the object decreases it (`Config.Spreads.due_le`).
-/

namespace Observable

variable {V : Type}

/-- The object over whose listeners a round began. -/
def Trace.notified? : Trace → Option Id
  | .notifying i _ => some i
  | _ => none

/-- There is an object, and it is one of the list. -/
def among (line : List Id) : Option Id → Bool
  | none => false
  | some t => decide (t ∈ line)

@[simp] theorem among_none (line : List Id) : among line none = false := rfl

@[simp] theorem among_some (line : List Id) (t : Id) : among line (some t) = decide (t ∈ line) :=
  rfl

theorem among_iff {line : List Id} {o : Option Id} :
    among line o = true ↔ ∃ t ∈ line, o = some t := by
  cases o <;> simp

namespace World

/-- At most one registration in a list calls an object of a line, and it does so only if the owner
of the list is above the first object. -/
theorem Linked.countP_among_le {w : World V} (hw : w.Linked) {j : Id} {above : List Id}
    (hline : w.IsLine (j :: above)) (u : Id) :
    (w.registrations u).countP (fun r => among (j :: above) r.target?) ≤
      if u ∈ above then 1 else 0 := by
  by_cases hnone : ∀ r ∈ w.registrations u, ¬ among (j :: above) r.target? = true
  · rw [List.countP_eq_zero.2 hnone]
    exact Nat.zero_le _
  · obtain ⟨r, hr, hleads⟩ : ∃ r ∈ w.registrations u, among (j :: above) r.target? = true := by
      simpa using hnone
    obtain ⟨t, ht, htarget⟩ := among_iff.1 hleads
    have hrelation := hw.relation?_of_mem hr htarget
    rw [if_pos (hline.source_mem ht hrelation)]
    -- Any other one calls the same object, and so it is the same registration.
    have hsame : ∀ s ∈ w.registrations u,
        among (j :: above) s.target? = true → (s == r) = true := by
      intro s hs hmem
      obtain ⟨t', ht', htarget'⟩ := among_iff.1 hmem
      have hrelation' := hw.relation?_of_mem hs htarget'
      rw [hline.eq_of_source ht' ht hrelation' hrelation, hrelation] at hrelation'
      cases hrelation'
      exact beq_self_eq_true _
    exact Nat.le_trans (List.countP_mono_left hsame) (hw.count_le_one htarget)

end World

/-- The object for whose change of value a callback computes. -/
def Stack.computed? : {ρ : Role} → Stack V (.answer ρ) → Option Id
  | _, .validating _ below => some below.updated
  | _, .reporting _ _ _ => none
  | _, .converting t _ => some t
  | _, .wrapping _ _ _ _ => none
  | _, .listening _ => none

namespace Config

/-- The object whose validator or converter runs, for a change of its value. -/
def computing? (c : Config V) : Option Id :=
  match c.focus with
  | .run _ k => k.computed?
  | _ => none

variable [BEq V]

/-- The object whose validator or converter the next step begins to run, for a change of its
value. -/
def computes? (c : Config V) : Option Id :=
  match c.focus with
  | .operate _ _ | .round _ _ _ _ _ => c.step.bind computing?
  | _ => none

/-! ## The steps of an update -/

/-- A property is being set, or that has ended. -/
structure Underway (c : Config V) : Prop where
  run : ∃ past, Run Op.IsQuiet past c
  focus : c.focus.Rooted ∨ c.reply?.isSome = true

omit [BEq V] in
theorem rooted_fail {s : State V} {e : Error} {k : Stack V .update} (hk : k.Rooted) :
    (s.fail e k).focus.Rooted :=
  State.fail_cases (P := fun d => d.focus.Rooted) hk fun _ _ _ _ => hk

theorem Underway.rooted {c d : Config V} (hc : c.Underway) (hstep : c.step = some d) :
    c.focus.Rooted := by
  rcases hc.focus with hrooted | hreply
  · exact hrooted
  · rw [(step_eq_none_iff c).2 hreply] at hstep
    cases hstep

/-- No operation is performed while a property is being set. -/
theorem Underway.focus_ne_operate {c d : Config V} (hc : c.Underway) (hstep : c.step = some d)
    (op : Op V) (k : Stack V .reply) : c.focus ≠ .operate op k := by
  intro hfocus
  obtain ⟨past, hrun⟩ := hc.run
  have hrooted := hc.rooted hstep
  have hquiet := hrun.quiet.focus
  rw [hfocus] at hrooted hquiet
  have hidle := hquiet.2.eq_idle
  subst hidle
  exact hrooted

/-- What a step does to what is being computed and to what rounds have still to call. -/
inductive Spreads (c d : Config V) : Prop
  /-- A round calls a property or a binding. -/
  | call {i : Id} {r : Registration} (hcomputes : c.computes? = some i)
      (hwritten : c.written? = none) (hnone : c.computing? = none)
      (hcomputing : d.computing? = some i)
      (htarget : r.target? = some i) (hpending : c.focus.pending = r :: d.focus.pending)
  /-- A value is written and its round begins. -/
  | write {i : Id} {v : V} (hcomputes : c.computes? = none) (hwritten : c.written? = some (i, v))
      (hcomputing : c.computing? = some i) (hnone : d.computing? = none)
      (hpending : d.focus.pending = c.state.world.registrations i ++ c.focus.pending)
  | other (hcomputes : c.computes? = none) (hwritten : c.written? = none)
      (hcomputing : ∀ i, d.computing? = some i → c.computing? = some i)
      (hpending : d.focus.pending.Sublist c.focus.pending)

omit [BEq V] in
theorem computing?_fail (s : State V) (e : Error) (k : Stack V .update) :
    (s.fail e k).computing? = none :=
  State.fail_cases (P := fun d => d.computing? = none) rfl fun _ _ _ _ => rfl

/-- While a property is being set, a step spreads the change. -/
theorem Underway.spreads {c d : Config V} (hc : c.Underway) (hstep : c.step = some d) :
    c.Spreads d := by
  obtain ⟨past, hrun⟩ := hc.run
  have hrooted := hc.rooted hstep
  have hquiet := hrun.quiet
  have hnothing : ∀ {o : Option Id} (i : Id), none = some i → o = some i :=
    fun _ h => nomatch h
  cases Transition.of_step hstep with
  | act | setUnknown | setBound | set | notifyUnknown | notify | wrapUnknown | wrap =>
    exact absurd rfl (hc.focus_ne_operate hstep _ _)
  | resume => exact hquiet.focus.elim
  | perform => exact absurd hquiet.focus.1 Script.not_isPassive_perform
  | wrapped s i name convert v k =>
    have hidle := hquiet.focus.2.2.eq_idle
    subst hidle
    exact hrooted.elim
  | notified s r i j k =>
    have hidle : k = .idle := Stack.IsQuiet.eq_idle hquiet.focus
    subst hidle
    exact hrooted.elim
  | deliver | convert =>
    refine .call ?_ rfl rfl rfl rfl rfl
    rw [computes?, hstep]
    rfl
  | write i hold hne => exact .write rfl (written?_validated i hold hne) rfl rfl rfl
  | converted v k hold => exact .write rfl (written?_converted hold) rfl rfl rfl
  -- Nothing else is computed or written.
  | gone i v hgone =>
    exact .other rfl (by simp [written?, State.written?, hgone]) hnothing (.refl _)
  | unchanged i hold heq =>
    exact .other rfl (by simp [written?, State.written?, hold, heq]) hnothing (.refl _)
  | convertedGone v k hgone =>
    exact .other rfl (by rw [written?_converting, hgone]; rfl) hnothing (.refl _)
  | emit => exact .other rfl rfl (fun _ h => h) (.refl _)
  | reject | announceFailed =>
    refine .other rfl rfl ?_ ?_
    · rw [computing?_fail]
      exact hnothing
    · rw [pending_fail]
      exact .refl _
  | setDone | followed | reported | announced | recomputed | listened | listenFailed | called =>
    exact .other rfl rfl hnothing (.refl _)
  | callFailed => exact .other rfl rfl hnothing (List.sublist_append_right _ _)
  | roundDone =>
    refine .other ?_ rfl hnothing (.refl _)
    rw [computes?, hstep]
    rfl
  | callGone | send | listen | boundGone | derivedGone =>
    refine .other ?_ rfl hnothing (List.sublist_cons_self _ _)
    rw [computes?, hstep]
    rfl

/-- A step leaves the sources of all objects as they are. -/
theorem Underway.step {c d : Config V} (hc : c.Underway) (hstep : c.step = some d) :
    d.Underway ∧ ∀ t, d.state.world.relation? t = c.state.world.relation? t := by
  obtain ⟨past, hrun⟩ := hc.run
  have hrooted := hc.rooted hstep
  suffices h : (d.focus.Rooted ∨ d.reply?.isSome = true) ∧
      ∀ t, d.state.world.relation? t = c.state.world.relation? t from
    ⟨⟨⟨_, hrun.step hstep⟩, h.1⟩, h.2⟩
  cases Transition.of_step hstep with
  | act | setUnknown | setBound | set | notifyUnknown | notify | wrapUnknown | wrap =>
    exact absurd rfl (hc.focus_ne_operate hstep _ _)
  | perform => exact absurd hrun.quiet.focus.1 Script.not_isPassive_perform
  | wrapped s i name convert v k =>
    have hidle := hrun.quiet.focus.2.2.eq_idle
    subst hidle
    exact hrooted.elim
  | setDone s r i k =>
    have hidle : k = .idle := Stack.IsQuiet.eq_idle hrun.quiet.focus
    subst hidle
    rw [release_of_named hrun.named]
    exact ⟨.inr rfl, fun _ => rfl⟩
  | followed | convertedGone | recomputed =>
    rw [release_of_named hrun.named]
    exact ⟨.inl hrooted, fun _ => rfl⟩
  | notified =>
    rw [release_of_named hrun.named, release_of_named hrun.named]
    exact ⟨.inl hrooted, fun _ => rfl⟩
  | reject | announceFailed =>
    rw [state_fail]
    exact ⟨.inl (rooted_fail hrooted), fun _ => rfl⟩
  | write | converted => exact ⟨.inl hrooted, fun _ => World.relation?_store ..⟩
  | _ => exact ⟨.inl hrooted, fun _ => rfl⟩

/-! ## What is counted -/

/-- The objects for which a validator or a converter begins to run, latest first. -/
def computed (segment : List (Config V)) : List Id := segment.flatMap fun c => c.computes?.toList

/-- The objects whose stored values are replaced, latest first. -/
def stored (segment : List (Config V)) : List Id :=
  segment.flatMap fun c => (c.written?.map (·.1)).toList

/-- The objects over whose listeners a round begins, latest first. -/
def rounds (segment : List (Config V)) : List Id :=
  segment.flatMap fun c => c.announces.filterMap Trace.notified?

/-- What a step counts more than another count of it is paid from a potential, so the same holds of
all the steps together. -/
theorem count_trail_le {P : Config V → Prop} {f g : Config V → List Id} (due : Config V → Nat)
    (j : Id) (hstep : ∀ c d, P c → c.step = some d →
      P d ∧ (f c).count j + due d ≤ (g c).count j + due c) (n : Nat) {c : Config V} (hc : P c) :
    ((trail n c).flatMap f).count j ≤ ((trail n c).flatMap g).count j + due c := by
  induction n generalizing c with
  | zero => exact Nat.zero_le _
  | succ n ih =>
    cases hnext : c.step with
    | none => simp [trail, hnext]
    | some d =>
      obtain ⟨hd, hle⟩ := hstep c d hc hnext
      have hlater := ih hd
      simp only [trail, hnext, List.flatMap_append, List.flatMap_singleton, List.count_append]
      omega

/-- What a step counts is paid from a potential. -/
theorem count_trail_le_due {P : Config V → Prop} {f : Config V → List Id} (due : Config V → Nat)
    (j : Id) (hstep : ∀ c d, P c → c.step = some d → P d ∧ (f c).count j + due d ≤ due c) (n : Nat)
    {c : Config V} (hc : P c) : ((trail n c).flatMap f).count j ≤ due c := by
  have hnothing : (trail n c).flatMap (fun _ => ([] : List Id)) = [] :=
    List.flatMap_eq_nil_iff.2 fun _ _ => rfl
  have hpaid : ((trail n c).flatMap f).count j ≤
      ((trail n c).flatMap fun _ => ([] : List Id)).count j + due c := by
    refine count_trail_le due j ?_ n hc
    intro c d hc hnext
    rw [List.count_nil, Nat.zero_add]
    exact hstep c d hc hnext
  rw [hnothing, List.count_nil, Nat.zero_add] at hpaid
  exact hpaid

/-- The calls that are still to be made of an object or of one above it, with the one that is in
progress above it. -/
def due (j : Id) (above : List Id) (c : Config V) : Nat :=
  c.focus.pending.countP (fun r => among (j :: above) r.target?) +
    if among above c.computing? then 1 else 0

/-- A call of the object is one that was still to be made, and what a round adds was counted while
the value was being computed. -/
theorem Spreads.due_le {c d : Config V} (h : c.Spreads d) (hw : c.state.world.Linked) {j : Id}
    {above : List Id} (hline : c.state.world.IsLine (j :: above)) :
    c.computes?.toList.count j + due j above d ≤ due j above c := by
  have hj := hline.not_mem
  unfold due
  cases h with
  | @call i r hcomputes hwritten hnone hcomputing htarget hpending =>
    rw [hcomputes, hcomputing, hnone, hpending, List.countP_cons, htarget]
    by_cases hi : i = j
    · subst hi
      simp [hj, Nat.add_comm]
    · simp [hi]
  | @write i v hcomputes hwritten hcomputing hnone hpending =>
    have hlist := hw.countP_among_le hline i
    rw [hcomputes, hcomputing, hnone, hpending, List.countP_append]
    simp only [among_some, decide_eq_true_eq, among_none, Bool.false_eq_true, if_false,
      Option.toList_none, List.count_nil]
    omega
  | other hcomputes hwritten hcomputing hpending =>
    have hless : d.focus.pending.countP (fun r => among (j :: above) r.target?) ≤
        c.focus.pending.countP (fun r => among (j :: above) r.target?) := hpending.countP_le
    have hhand : (if among above d.computing? then 1 else 0) ≤
        if among above c.computing? then 1 else 0 := by
      cases hd : d.computing? with
      | none => simp
      | some i => simp [hcomputing i hd]
    rw [hcomputes, Option.toList_none, List.count_nil, Nat.zero_add]
    exact Nat.add_le_add hless hhand

/-- What is written was computed before. -/
theorem Spreads.stored_le {c d : Config V} (h : c.Spreads d) (j : Id) :
    (c.written?.map (·.1)).toList.count j + d.computing?.toList.count j ≤
      c.computes?.toList.count j + c.computing?.toList.count j := by
  cases h with
  | call hcomputes hwritten hnone hcomputing htarget hpending =>
    rw [hcomputes, hwritten, hnone, hcomputing]
    simp
  | write hcomputes hwritten hcomputing hnone hpending =>
    rw [hcomputes, hwritten, hnone, hcomputing]
    simp
  | other hcomputes hwritten hcomputing hpending =>
    rw [hcomputes, hwritten]
    cases hd : d.computing? with
    | none => simp
    | some i => simp [hcomputing i hd]

/-- A round begins exactly when a value is written. -/
theorem Underway.notified {c d : Config V} (hc : c.Underway) (hstep : c.step = some d) :
    c.announces.filterMap Trace.notified? = (c.written?.map (·.1)).toList := by
  obtain ⟨past, hrun⟩ := hc.run
  have hannounces := announcing_of_step hstep
  generalize c.announces = traces at hannounces
  cases hannounces with
  | act hfocus => exact absurd hfocus (hc.focus_ne_operate hstep _ _)
  | notify hfocus => exact absurd hfocus (hc.focus_ne_operate hstep _ _)
  | silent hwritten =>
    rw [hwritten]
    rfl
  | write hwritten =>
    rw [hwritten]
    rfl
  | wrap hfocus =>
    have hrooted := hc.rooted hstep
    have hquiet := hrun.quiet.focus
    rw [hfocus] at hrooted hquiet
    have hidle := hquiet.2.2.eq_idle
    subst hidle
    exact hrooted.elim

theorem computing?_of_computes? {c d : Config V} (hstep : c.step = some d) {j : Id}
    (hcomputes : c.computes? = some j) : d.computing? = some j := by
  unfold computes? at hcomputes
  rw [hstep] at hcomputes
  split at hcomputes
  · exact hcomputes
  · exact hcomputes
  · cases hcomputes

omit [BEq V] in
theorem line_of_computing? {c : Config V} {j : Id} (hcomputing : c.computing? = some j) :
    ∃ above, c.focus.line = j :: above := by
  obtain ⟨s, f⟩ := c
  cases f with
  | run script k =>
    cases k with
    | validating i k =>
      cases hcomputing
      exact k.line_update
    | converting t k =>
      cases hcomputing
      exact ⟨_, rfl⟩
    | _ => cases hcomputing
  | _ => cases hcomputing

/-- What is computed stands on a line, since the updates in progress do. -/
theorem Underway.line_of_computes? {c d : Config V} (hc : c.Underway) (hstep : c.step = some d)
    {j : Id} (hcomputes : c.computes? = some j) :
    ∃ above, c.state.world.IsLine (j :: above) := by
  obtain ⟨past, hrun⟩ := hc.run
  obtain ⟨above, hline⟩ := line_of_computing? (computing?_of_computes? hstep hcomputes)
  have hnested := (hrun.step hstep).nested.line
  rw [hline] at hnested
  exact ⟨above, hnested.congr fun t => ((hc.step hstep).2 t).symm⟩

/-! ## The steps of an update together -/

/-- An object is computed at most as often as calls of it were due at first. -/
theorem Underway.count_computed_le {c : Config V} (hc : c.Underway) {j : Id} {above : List Id}
    (hline : c.state.world.IsLine (j :: above)) (n : Nat) :
    (computed (trail n c)).count j ≤ due j above c := by
  refine count_trail_le_due (P := fun c => c.Underway ∧ c.state.world.IsLine (j :: above))
    (due j above) j ?_ n ⟨hc, hline⟩
  rintro c d ⟨hc, hline⟩ hstep
  obtain ⟨past, hrun⟩ := hc.run
  obtain ⟨hd, hrelation⟩ := hc.step hstep
  exact ⟨⟨hd, hline.congr hrelation⟩, (hc.spreads hstep).due_le hrun.sound.world.linked hline⟩

/-- What stands on no line is not computed. -/
theorem Underway.count_computed_eq_zero {c : Config V} (hc : c.Underway) {j : Id}
    (hnone : ∀ above, ¬ c.state.world.IsLine (j :: above)) (n : Nat) :
    (computed (trail n c)).count j = 0 := by
  apply Nat.eq_zero_of_le_zero
  refine count_trail_le_due
    (P := fun c => c.Underway ∧ ∀ above, ¬ c.state.world.IsLine (j :: above)) (fun _ => 0) j ?_ n
    ⟨hc, hnone⟩
  rintro c d ⟨hc, hnone⟩ hstep
  obtain ⟨hd, hrelation⟩ := hc.step hstep
  refine ⟨⟨hd, fun above h => hnone above (h.congr fun t => (hrelation t).symm)⟩, ?_⟩
  have hother : c.computes? ≠ some j := by
    intro hcomputes
    obtain ⟨above, hline⟩ := hc.line_of_computes? hstep hcomputes
    exact hnone above hline
  apply Nat.le_of_eq
  rw [Nat.add_zero, List.count_eq_zero, Option.mem_toList]
  exact hother

/-- An object is written at most as often as it is computed. -/
theorem Underway.count_stored_le {c : Config V} (hc : c.Underway) (j : Id) (n : Nat) :
    (stored (trail n c)).count j ≤
      (computed (trail n c)).count j + c.computing?.toList.count j := by
  refine count_trail_le (P := Underway) (fun c => c.computing?.toList.count j) j ?_ n hc
  intro c d hc hstep
  exact ⟨(hc.step hstep).1, (hc.spreads hstep).stored_le j⟩

/-- A list is notified at most as often as its owner is written. -/
theorem Underway.count_rounds_le {c : Config V} (hc : c.Underway) (j : Id) (n : Nat) :
    (rounds (trail n c)).count j ≤ (stored (trail n c)).count j := by
  refine count_trail_le (P := Underway) (fun _ => 0) j ?_ n hc
  intro c d hc hstep
  refine ⟨(hc.step hstep).1, Nat.le_of_eq ?_⟩
  rw [hc.notified hstep]

/-! ## Setting a property -/

/-- During a segment of a run, the given object is updated once and no object more than once. -/
structure VisitsOnce (segment : List (Config V)) (i : Id) : Prop where
  root : (computed segment).count i = 1
  computed : (computed segment).Nodup
  stored : (stored segment).Nodup
  rounds : (rounds segment).Nodup

/-- The first step only begins to compute for the object. -/
theorem VisitsOnce.of_begin {segment : List (Config V)} {c₀ : Config V} {i : Id}
    (hcomputes : c₀.computes? = some i) (hwritten : c₀.written? = none)
    (hsilent : c₀.announces = [])
    (hcomputed : ∀ j, (Config.computed segment).count j + [i].count j ≤ 1)
    (hstored : ∀ j, (Config.stored segment).count j ≤
      (Config.computed segment).count j + [i].count j)
    (hrounds : ∀ j, (Config.rounds segment).count j ≤ (Config.stored segment).count j) :
    VisitsOnce (segment ++ [c₀]) i := by
  have hcomputed' : Config.computed (segment ++ [c₀]) = Config.computed segment ++ [i] := by
    simp [Config.computed, hcomputes]
  have hstored' : Config.stored (segment ++ [c₀]) = Config.stored segment := by
    simp [Config.stored, hwritten]
  have hrounds' : Config.rounds (segment ++ [c₀]) = Config.rounds segment := by
    simp [Config.rounds, hsilent]
  constructor
  · have hroot := hcomputed i
    rw [List.count_singleton_self] at hroot
    rw [hcomputed', List.count_append, List.count_singleton_self]
    omega
  · rw [hcomputed', List.nodup_iff_count]
    intro j
    rw [List.count_append]
    exact hcomputed j
  · rw [hstored', List.nodup_iff_count]
    intro j
    exact Nat.le_trans (hstored j) (hcomputed j)
  · rw [hrounds', List.nodup_iff_count]
    intro j
    exact Nat.le_trans (hrounds j) (Nat.le_trans (hstored j) (hcomputed j))

variable {past : List (Config V)} {c : Config V} {i : Id} {p : Property V}

/-- What the update of a property comes to, once its validator has been called from outside. -/
theorem Run.leads_walk (hrun : Run Op.IsQuiet past c) (hp : c.state.world.property? i = some p)
    (h : Acc (Feeds c.state.world.registrations) i) (v : V) :
    Leads (c.state.update p v (.setting i .idle))
      ⟨(c.state.walk i h v).1, .reply (.ofUpdate (c.state.walk i h v).2) .idle⟩ := by
  have hsteady : c.state.Steady c.state.world.registrations :=
    ⟨fun _ => rfl, hrun.quiet.world, hrun.named⟩
  obtain ⟨t, r, hresult, hlast, hupdate⟩ := (State.follows h).update hsteady hp v
    (k := (.setting i .idle : Stack V .update)) rfl
  have hended : Leads ⟨t, .updated r (.setting i .idle)⟩ (t.afterUpdate r (.setting i .idle)) :=
    .of_step rfl
  unfold State.walk
  rw [hresult]
  refine hupdate.trans (hended.trans ?_)
  simp only [State.afterUpdate, release_of_named hlast.named]
  cases r with
  | ok old => exact .refl _
  | error e => exact .refl _

/-- After the validator of a free property has been called from outside, no call of it is due, and
at most one of every other object. -/
theorem Underway.count_computed_root {s : State V} {v : V}
    (hc : Underway (s.update p v (.setting i .idle)))
    (hroot : s.world.IsLine [i]) (j : Id) (n : Nat) :
    (computed (trail n (s.update p v (.setting i .idle)))).count j + [i].count j ≤ 1 := by
  by_cases hline : ∃ above, s.world.IsLine (j :: above)
  · obtain ⟨above, hline⟩ := hline
    have hcount := hc.count_computed_le hline n
    have hdue : due j above (s.update p v (.setting i .idle)) =
        if i ∈ above then 1 else 0 := by
      simp [due, State.update, computing?, Stack.computed?, Stack.updated, Focus.pending,
        Focus.frames, Stack.pending]
    rw [hdue] at hcount
    by_cases hi : i = j
    · -- There is nothing above the root.
      subst hi
      cases hline.unique hroot
      simpa using hcount
    · rw [List.count_singleton, if_neg (by simpa using hi)]
      split at hcount <;> omega
  · have hnone := hc.count_computed_eq_zero (fun above h => hline ⟨above, h⟩) n
    rw [hnone, Nat.zero_add]
    exact List.count_le_length

/-- Setting a free property updates it once and nothing more than once. -/
theorem Run.visitsOnce {s : State V} {name : String} {v : V}
    (hset : Run Op.IsQuiet past (Config.start s (.set name v)))
    (hbegin : (Config.start s (.set name v)).step = some (s.update p v (.setting i .idle)))
    (hroot : s.world.IsLine [i]) (n : Nat) :
    VisitsOnce (trail (n + 1) (Config.start s (.set name v))) i := by
  have hunderway : Underway (s.update p v (.setting i .idle)) :=
    ⟨⟨_, hset.step hbegin⟩, .inl trivial⟩
  have htrail : trail (n + 1) (Config.start s (.set name v)) =
      trail n (s.update p v (.setting i .idle)) ++ [Config.start s (.set name v)] := by
    simp [trail, hbegin]
  have hcomputes : computes? (Config.start s (.set name v)) = some i := by
    show (Config.start s (.set name v)).step.bind computing? = some i
    rw [hbegin]
    rfl
  have hsilent : announces (Config.start s (.set name v)) = [] :=
    announces_of_log_eq hbegin id rfl
  rw [htrail]
  exact .of_begin hcomputes rfl hsilent (fun j => hunderway.count_computed_root hroot j n)
    (fun j => hunderway.count_stored_le j n) (fun j => hunderway.count_rounds_le j n)

/-- In any state that a quiet run comes to, setting a free property ends, in the state and with the
result of the walk from it; on the way its validator runs once, and no other validator and no
converter more than once, no value is stored twice, and no list is notified twice. -/
theorem Run.set_visits (hrun : Run Op.IsQuiet past c) (hreply : c.reply?.isSome = true)
    {name : String} (hname : c.state.world.find? name Handle.property? = some i)
    (hfree : c.state.world.isBound i = false) (v : V) :
    ∃ (h : Acc (Feeds c.state.world.registrations) i) (n : Nat),
      (Config.start c.state (.set name v)).iterate n =
          ⟨(c.state.walk i h v).1, .reply (.ofUpdate (c.state.walk i h v).2) .idle⟩ ∧
        VisitsOnce (trail n (Config.start c.state (.set name v))) i := by
  have hsound := hrun.sound
  have hshape := hsound.world.shape?_of_property hname
  obtain ⟨p, hp⟩ := World.shape?_eq_property_iff.1 hshape
  have hsource : p.source = none := by
    simpa [World.isBound, hp] using hfree
  have hroot : c.state.world.relation? i = none := by
    rw [World.relation?_of_property? hp, hsource]
    rfl
  have h := hsound.world.linked.acc_of_free (World.alive_of_shape? hshape) hroot
  obtain ⟨n, hn⟩ := hrun.leads_walk hp h v
  have hbegin : (Config.start c.state (.set name v)).step =
      some (c.state.update p v (.setting i .idle)) :=
    step_set_free rfl hname hp hsource
  have hset : Run Op.IsQuiet (c :: past) (Config.start c.state (.set name v)) :=
    hrun.perform hreply trivial
  refine ⟨h, n + 1, ?_, hset.visitsOnce hbegin hroot n⟩
  simp [Config.iterate, hbegin, hn]

/-- A property has a follower with a binding, and two other properties are bound to each other. -/
theorem set_visits_circle : ∃ (past : List (Config Bool)) (c : Config Bool),
    Run Op.IsQuiet past c ∧ c.state.world.registrations 0 = [.bound 1] ∧
      c.state.world.registrations 1 = [.derived 4] ∧
      c.state.world.registrations 2 = [.bound 3] ∧ c.state.world.registrations 3 = [.bound 2] ∧
      ∃ (h : Acc (Feeds c.state.world.registrations) 0) (n : Nat),
        (Config.start c.state (.set "p" true)).iterate n =
            ⟨(c.state.walk 0 h true).1, .reply (.ofUpdate (c.state.walk 0 h true).2) .idle⟩ ∧
          VisitsOnce (trail n (Config.start c.state (.set "p" true))) 0 := by
  have hp : Run Op.IsQuiet _
      (Config.start {} (.act (.property "p" false (fun v => .stop (.ok v)) none))) :=
    .start ⟨fun _ => rfl, fun _ hr => by cases hr⟩
  have hq : Run Op.IsQuiet _
      (Config.start _ (.act (.property "q" false (fun v => .stop (.ok v)) none))) :=
    (hp.step rfl).perform rfl ⟨fun _ => rfl, fun _ hr => by cases hr⟩
  have hr : Run Op.IsQuiet _
      (Config.start _ (.act (.property "r" false (fun v => .stop (.ok v)) none))) :=
    (hq.step rfl).perform rfl ⟨fun _ => rfl, fun _ hr => by cases hr⟩
  have hs : Run Op.IsQuiet _
      (Config.start _ (.act (.property "s" false (fun v => .stop (.ok v)) none))) :=
    (hr.step rfl).perform rfl ⟨fun _ => rfl, fun _ hr => by cases hr⟩
  have hfollow : Run Op.IsQuiet _ (Config.start _ (.act (.bind "q" "p"))) :=
    (hs.step rfl).perform rfl trivial
  have hbind : Run Op.IsQuiet _ (Config.start _ (.act (.bind "r" "s"))) :=
    (hfollow.step rfl).perform rfl trivial
  have hback : Run Op.IsQuiet _ (Config.start _ (.act (.bind "s" "r"))) :=
    (hbind.step rfl).perform rfl trivial
  have hwrap : Run Op.IsQuiet _ (Config.start _ (.wrap "q" "b" fun v => .stop (!v))) :=
    (hback.step rfl).perform rfl fun _ => rfl
  have hlast := hwrap.iterate 2
  exact ⟨_, _, hlast, rfl, rfl, rfl, rfl, hlast.set_visits rfl rfl rfl true⟩

end Config

end Observable
