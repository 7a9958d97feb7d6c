import Observable.Proofs.Failures
import Observable.Proofs.Lifetimes
import Observable.Proofs.Writers

/-!
# Updates

An update of a property asks the validator, writes and announces a value that differs from the
stored one, and tells the property's reporter if it fails. Callbacks may do whatever they like
meanwhile, and the same property may be set again inside its own update. Still an update can only
take one of a few courses (`Config.Course`): what its validator answers decides whether anything is
written, and how its own round ends decides its result (`Config.Run.course`).

As with rounds, an update is identified by its frames, and what it does is read off the history at
their depth (`Config.record`): the validator's answers with the values that were stored then, the
changes that were written and announced, how the rounds about them ended, and what the reporter was
told.
-/

namespace Observable

variable {V : Type}

/-! ## Reporters -/

namespace Body

/-- The reporter of a property that has one. -/
def reporter? : Body V → Option (Error → Script V .reporter)
  | .property p => p.report
  | _ => none

theorem isFixed_reporter? : IsFixed (reporter? (V := V)) where
  store _ b := by cases b <;> rfl
  follow _ b := by cases b <;> rfl

end Body

/-- The reporter of a property that lives and has one. -/
def World.reporter? (w : World V) (i : Id) : Option (Error → Script V .reporter) :=
  (w.body? i).bind Body.reporter?

theorem World.reporter?_of_property? {w : World V} {i : Id} {p : Property V}
    (hp : w.property? i = some p) : w.reporter? i = p.report := by
  unfold reporter?
  rw [body?_of_property? hp]
  rfl

/-! ## What an update leads to -/

namespace Stack

/-- What goes on once the update that the innermost frame waits for has ended. -/
def given (r : Except Error V) : Stack V .update → Focus V
  | .setting _ k => .reply (.ofUpdate r) k
  | .following _ k => .called (r.map fun _ => ()) k

end Stack

/-! ## What an update does -/

/-- What an update has done, each in the order in which it was done. -/
structure Record (V : Type) where
  /-- What the validator answered, and the value that was stored then. -/
  verdicts : List (V × Except Cause V) := []
  /-- The changes that were written and announced. -/
  changes : List (Change V) := []
  /-- How the rounds ended that announced them. -/
  ends : List (Except Error Unit) := []
  /-- What the reporter was told. -/
  reports : List Error := []

instance : Append (Record V) where
  append r s := ⟨r.verdicts ++ s.verdicts, r.changes ++ s.changes, r.ends ++ s.ends,
    r.reports ++ s.reports⟩

namespace Record

theorem append_def (r s : Record V) :
    r ++ s = ⟨r.verdicts ++ s.verdicts, r.changes ++ s.changes, r.ends ++ s.ends,
      r.reports ++ s.reports⟩ := rfl

theorem append_empty (r : Record V) : r ++ ({} : Record V) = r := by
  simp [append_def]

end Record

namespace Config

/-- The answer that a validator gives now, the value that is stored now, and the frames of the
update. -/
def verdict? (c : Config V) : Option ((V × Except Cause V) × Stack V .update) :=
  match c.focus with
  | @Focus.run _ .validator (.stop a) (.validating _ k) =>
    (c.state.world.value? k.updated).map fun old => ((old, a), k)
  | _ => none

/-- How the round has ended that an update began, and the frames of the update. -/
def ending? (c : Config V) : Option (Except Error Unit × Stack V .update) :=
  match c.focus with
  | .rounded r (.updating _ _ k) => some (r, k)
  | _ => none

/-- The failure that an update is about to end with, and the frames of the update. -/
def failing? (c : Config V) : Option (Error × Stack V .update) :=
  match c.focus with
  | @Focus.run _ .validator (.stop (.error cause)) (.validating _ k) =>
    some (cause.during .validation, k)
  | .rounded (.error e) (.updating _ _ k) => some (e, k)
  | _ => none

/-- What a reporter is about to be told, and the frames of the update that failed. -/
def told? (c : Config V) : Option (Error × Stack V .update) :=
  c.failing?.filter fun x => (c.state.world.reporter? x.2.updated).isSome

variable [BEq V]

/-- The change that an update is about to write and announce, and the frames of the update. -/
def change? (c : Config V) : Option (Change V × Stack V .update) :=
  match c.focus with
  | @Focus.run _ .validator (.stop (.ok new)) (.validating _ k) =>
    ((c.state.world.value? k.updated).filter fun old => !(old == new)).map
      fun old => (⟨old, new⟩, k)
  | _ => none

omit [BEq V] in
/-- What was found, if the update is the one over the frames of `k`. -/
def foundAt {α : Type} (k : Stack V .update) (found : Option (α × Stack V .update)) : Option α :=
  (found.filter fun x => x.2.depth = k.depth).map (·.1)

/-- What the update over the frames of `k` does in the next step. -/
def does (c : Config V) (k : Stack V .update) : Record V where
  verdicts := (foundAt k c.verdict?).toList
  changes := (foundAt k c.change?).toList
  ends := (foundAt k c.ending?).toList
  reports := (foundAt k c.told?).toList

/-- What the update over the frames of `k` has done in a history with its latest moment first. -/
def record (k : Stack V .update) : List (Config V) → Record V
  | [] => {}
  | c :: past => record k past ++ c.does k

omit [BEq V] in
/-- An update has ended with `r`, or what waited for it goes on with `r`. -/
def Ended (c : Config V) (r : Except Error V) (k : Stack V .update) : Prop :=
  c.focus = .updated r k ∨ c.focus = k.given r

omit [BEq V] in
/-- An update has failed, and `reports` is what its reporter was told, if it has one. -/
inductive Fails (c : Config V) (hasReporter : Bool) (e : Error) (k : Stack V .update) :
    List Error → Prop
  | telling (hreporter : hasReporter = true) (hwaits : c.Waits (.reporting k.updated e k)) :
    Fails c hasReporter e k [e]
  | ended (hended : c.Ended (.error e) k) : Fails c hasReporter e k (if hasReporter then [e] else [])

/-- How far an update has come, and what it has done. -/
inductive Course (c : Config V) (hasReporter : Bool) (k : Stack V .update) : Record V → Prop
  /-- The validator has not answered. -/
  | validating {i : Id} (hwaits : c.Waits (.validating i k)) : Course c hasReporter k {}
  /-- The validator has rejected the value. -/
  | rejected {o : V} {cause : Cause} {reports : List Error}
      (hfails : c.Fails hasReporter (cause.during .validation) k reports) :
    Course c hasReporter k { verdicts := [(o, .error cause)], reports := reports }
  /-- The validated value equals the stored one, which stays. -/
  | equal {o w : V} (heq : (o == w) = true) (hended : c.Ended (.ok o) k)
      (hvalue : ∀ x, c.state.world.value? k.updated = some x → x = o) :
    Course c hasReporter k { verdicts := [(o, .ok w)] }
  /-- The validated value has been written, and a round about it is in progress. -/
  | announcing {o w : V} (hne : (o == w) = false) (hwaits : c.Waits (.updating k.updated o k)) :
    Course c hasReporter k { verdicts := [(o, .ok w)], changes := [⟨o, w⟩] }
  /-- The round has ended well. -/
  | announced {o w : V} (hne : (o == w) = false) (hended : c.Ended (.ok o) k) :
    Course c hasReporter k { verdicts := [(o, .ok w)], changes := [⟨o, w⟩], ends := [.ok ()] }
  /-- The round has failed. -/
  | failed {o w : V} {e : Error} {reports : List Error} (hne : (o == w) = false)
      (hfails : c.Fails hasReporter e k reports) :
    Course c hasReporter k
      { verdicts := [(o, .ok w)], changes := [⟨o, w⟩], ends := [.error e], reports := reports }

/-! ## What one step does -/

omit [BEq V] in
/-- The update over the frames of `k` goes on: its validator answers, or its round has ended. -/
inductive Acts (c : Config V) (k : Stack V .update) : Prop
  | answer {i : Id} {a : Answer V .validator} (hfocus : c.focus = .run (.stop a) (.validating i k))
  | round {i : Id} {old : V} {r : Except Error Unit}
    (hfocus : c.focus = .rounded r (.updating i old k))

omit [BEq V] in
theorem Acts.waits {c : Config V} {k : Stack V .update} (hacts : c.Acts k) : c.Waits k := by
  unfold Waits
  cases hacts with
  | answer hfocus | round hfocus =>
    rw [hfocus]
    exact List.mem_cons_of_mem _ (Stack.mem_tails_self k)

omit [BEq V] in
theorem acts_of_verdict? {c : Config V} {x : (V × Except Cause V) × Stack V .update}
    (hx : c.verdict? = some x) : c.Acts x.2 := by
  unfold verdict? at hx
  split at hx
  · next a i k hfocus =>
    obtain ⟨old, _, rfl⟩ := Option.map_eq_some_iff.1 hx
    exact .answer hfocus
  · cases hx

theorem acts_of_change? {c : Config V} {x : Change V × Stack V .update}
    (hx : c.change? = some x) : c.Acts x.2 := by
  unfold change? at hx
  split at hx
  · next new i k hfocus =>
    obtain ⟨old, _, rfl⟩ := Option.map_eq_some_iff.1 hx
    exact .answer hfocus
  · cases hx

omit [BEq V] in
theorem acts_of_ending? {c : Config V} {x : Except Error Unit × Stack V .update}
    (hx : c.ending? = some x) : c.Acts x.2 := by
  unfold ending? at hx
  split at hx
  · next r i old k hfocus =>
    cases hx
    exact .round hfocus
  · cases hx

omit [BEq V] in
theorem acts_of_failing? {c : Config V} {x : Error × Stack V .update}
    (hx : c.failing? = some x) : c.Acts x.2 := by
  unfold failing? at hx
  split at hx
  · next cause i k hfocus =>
    cases hx
    exact .answer hfocus
  · next e i old k hfocus =>
    cases hx
    exact .round hfocus
  · cases hx

omit [BEq V] in
theorem acts_of_told? {c : Config V} {x : Error × Stack V .update} (hx : c.told? = some x) :
    c.Acts x.2 :=
  acts_of_failing? (Option.filter_eq_some_iff.1 hx).1

omit [BEq V] in
theorem foundAt_eq_none {α : Type} {c : Config V} {k : Stack V .update}
    {found : Option (α × Stack V .update)} (hwaits : c.Waits k) (hidle : ¬ c.Acts k)
    (hfound : ∀ x, found = some x → c.Acts x.2) : foundAt k found = none := by
  cases found with
  | none => rfl
  | some x =>
    have hacts := hfound x rfl
    have hdepth : x.2.depth ≠ k.depth := by
      intro heq
      cases Stack.eq_of_depth hacts.waits hwaits heq
      exact hidle hacts
    simp [foundAt, hdepth]

/-- An update does something when its validator answers and when its round ends, and at no other
time. -/
theorem does_eq_empty {c : Config V} {k : Stack V .update} (hwaits : c.Waits k)
    (hidle : ¬ c.Acts k) : c.does k = {} := by
  unfold does
  rw [foundAt_eq_none hwaits hidle fun _ => acts_of_verdict?,
    foundAt_eq_none hwaits hidle fun _ => acts_of_change?,
    foundAt_eq_none hwaits hidle fun _ => acts_of_ending?,
    foundAt_eq_none hwaits hidle fun _ => acts_of_told?]
  rfl

omit [BEq V] in
@[simp] theorem foundAt_self {α : Type} (k : Stack V .update) (x : α) :
    foundAt k (some (x, k)) = some x := by
  simp [foundAt]

omit [BEq V] in
@[simp] theorem foundAt_none {α : Type} (k : Stack V .update) :
    foundAt k (none : Option (α × Stack V .update)) = none := rfl

omit [BEq V] in
theorem told?_of_failing? {c : Config V} {e : Error} {k : Stack V .update}
    (hfailing : c.failing? = some (e, k)) :
    c.told? = if (c.state.world.reporter? k.updated).isSome then some (e, k) else none := by
  rw [told?, hfailing]
  exact Option.filter_some

theorem does_of_rejected {c : Config V} {k : Stack V .update} {i : Id} {cause : Cause} {o : V}
    (hfocus : c.focus = .run (@Script.stop V .validator (.error cause)) (.validating i k))
    (hold : c.state.world.value? k.updated = some o) :
    c.does k = { verdicts := [(o, .error cause)],
                 reports := if (c.state.world.reporter? k.updated).isSome then
                   [cause.during .validation] else [] } := by
  have hverdict : c.verdict? = some ((o, .error cause), k) := by simp [verdict?, hfocus, hold]
  have hchange : c.change? = none := by simp [change?, hfocus]
  have hending : c.ending? = none := by simp [ending?, hfocus]
  have htold := told?_of_failing? (c := c) (e := cause.during .validation) (k := k)
    (by simp [failing?, hfocus])
  rw [does, hverdict, hchange, hending, htold]
  split <;> simp

theorem does_of_validated {c : Config V} {k : Stack V .update} {i : Id} {w o : V}
    (hfocus : c.focus = .run (@Script.stop V .validator (.ok w)) (.validating i k))
    (hold : c.state.world.value? k.updated = some o) :
    c.does k = { verdicts := [(o, .ok w)], changes := if o == w then [] else [⟨o, w⟩] } := by
  have hverdict : c.verdict? = some ((o, .ok w), k) := by simp [verdict?, hfocus, hold]
  have hchange : c.change? = if o == w then none else some (⟨o, w⟩, k) := by
    cases heq : o == w <;> simp [change?, hfocus, hold, heq]
  have hending : c.ending? = none := by simp [ending?, hfocus]
  have htold : c.told? = none := by simp [told?, failing?, hfocus]
  rw [does, hverdict, hchange, hending, htold]
  split <;> simp

theorem does_of_announced {c : Config V} {k : Stack V .update} {i : Id} {o : V}
    (hfocus : c.focus = .rounded (.ok ()) (.updating i o k)) :
    c.does k = { ends := [.ok ()] } := by
  simp [does, verdict?, change?, ending?, told?, failing?, hfocus]

theorem does_of_failed {c : Config V} {k : Stack V .update} {i : Id} {o : V} {e : Error}
    (hfocus : c.focus = .rounded (.error e) (.updating i o k)) :
    c.does k = { ends := [.error e],
                 reports := if (c.state.world.reporter? k.updated).isSome then [e] else [] } := by
  have htold := told?_of_failing? (c := c) (e := e) (k := k) (by simp [failing?, hfocus])
  rw [does, htold]
  split <;> simp [verdict?, change?, ending?, hfocus]

/-! ## The course of an update -/

/-- A callback goes on until it answers. -/
theorem Transition.waits_answer {c d : Config V} (hmove : c.Transition d) {ρ : Role}
    {k : Stack V (.answer ρ)} (hk : c.Waits k) :
    (∃ a, c.focus = .run (.stop a) k) ∨ ((∀ a, c.focus ≠ .run (.stop a) k) ∧ d.Waits k) := by
  by_cases hstop : ∃ a, c.focus = .run (.stop a) k
  · exact .inl hstop
  · refine .inr ⟨fun a ha => hstop ⟨a, ha⟩, (hmove.waits hk).elim (fun hframes => ?_) id⟩
    obtain ⟨s, f⟩ := c
    cases f with
    | run script k' =>
      cases hframes
      cases script with
      | stop a => exact absurd ⟨a, rfl⟩ hstop
      | emit e rest =>
        cases hmove
        exact hk
      | perform op next =>
        cases hmove
        exact List.mem_cons_of_mem _ hk
    | _ => cases hframes

/-- What a round was begun for waits until the round has ended. -/
theorem Transition.waits_rounded {c d : Config V} (hmove : c.Transition d) {k : Stack V .round}
    (hk : c.Waits k) :
    (∃ r, c.focus = .rounded r k) ∨ ((∀ r, c.focus ≠ .rounded r k) ∧ d.Waits k) := by
  by_cases hended : ∃ r, c.focus = .rounded r k
  · exact .inl hended
  · refine .inr ⟨fun r hr => hended ⟨r, hr⟩, (hmove.waits hk).elim (fun hframes => ?_) id⟩
    obtain ⟨s, f⟩ := c
    cases f with
    | rounded r k' =>
      cases hframes
      exact absurd ⟨r, rfl⟩ hended
    | _ => cases hframes

omit [BEq V] in
theorem failing?_cases {c : Config V} {e : Error} {k : Stack V .update}
    (hfailing : c.failing? = some (e, k)) :
    (∃ i old, c.focus = .rounded (.error e) (.updating i old k)) ∨
      ∃ i cause, e = cause.during .validation ∧
        c.focus = .run (@Script.stop V .validator (.error cause)) (.validating i k) := by
  unfold failing? at hfailing
  split at hfailing
  · next cause i k' hfocus =>
    cases hfailing
    exact .inr ⟨i, cause, rfl, hfocus⟩
  · next e' i old k' hfocus =>
    cases hfailing
    exact .inl ⟨i, old, hfocus⟩
  · cases hfailing

/-- A failed update is told to the reporter, or ends at once. -/
theorem Sound.failed_of_step {c d : Config V} (hc : c.Sound) (hstep : c.step = some d) {e : Error}
    {k : Stack V .update} (hfailing : c.failing? = some (e, k)) :
    (c.state.world.reporter? k.updated = none ∧ d.focus = .updated (.error e) k) ∨
      ((c.state.world.reporter? k.updated).isSome = true ∧
        d.Waits (.reporting k.updated e k)) := by
  obtain ⟨p, hp, hnext⟩ := hc.step_of_failed (failing?_cases hfailing)
  rw [hstep] at hnext
  rw [World.reporter?_of_property? hp]
  cases hreport : p.report with
  | none =>
    rw [hreport] at hnext
    cases hnext
    exact .inl ⟨rfl, rfl⟩
  | some report =>
    rw [hreport] at hnext
    cases hnext
    exact .inr ⟨rfl, Stack.mem_tails_self _⟩

theorem Sound.fails_of_step {c d : Config V} (hc : c.Sound) (hstep : c.step = some d) {e : Error}
    {k : Stack V .update} (hfailing : c.failing? = some (e, k)) :
    d.Fails (c.state.world.reporter? k.updated).isSome e k
      (if (c.state.world.reporter? k.updated).isSome then [e] else []) := by
  rcases hc.failed_of_step hstep hfailing with ⟨hnone, hfocus⟩ | ⟨hsome, hwaits⟩
  · rw [hnone]
    exact .ended (.inl hfocus)
  · rw [hsome]
    exact .telling rfl hwaits

/-- What waits for an update goes on with its result, and only a life may end. -/
theorem step_of_updated {c : Config V} {r : Except Error V} {k : Stack V .update}
    (hfocus : c.focus = .updated r k) :
    ∃ s, c.step = some ⟨s, k.given r⟩ ∧ c.state.world.Outlived s.world := by
  obtain ⟨s, f⟩ := c
  cases hfocus
  cases k <;> cases r <;> exact ⟨_, rfl, World.outlived_release ..⟩

omit [BEq V] in
/-- The frame right above an update is innermost when the update goes on. -/
theorem Acts.frames_eq {c : Config V} {k : Stack V .update} (hacts : c.Acts k) {a : Awaits}
    {l : Stack V a} (hl : c.Waits l) (hdepth : l.depth = k.depth + 1) :
    c.focus.frames = ⟨_, l⟩ := by
  have hframes : c.focus.frames.2.depth = k.depth + 1 := by
    cases hacts with
    | answer hfocus | round hfocus =>
      rw [hfocus]
      rfl
  exact Stack.eq_of_depth (Stack.mem_tails_self _) hl (hframes.trans hdepth.symm)

omit [BEq V] in
/-- No update goes on while its reporter runs. -/
theorem not_acts_of_reporting {c : Config V} {i : Id} {e : Error} {k : Stack V .update}
    (hwaits : c.Waits (.reporting i e k)) : ¬ c.Acts k := by
  intro hacts
  have hframes := hacts.frames_eq hwaits rfl
  cases hacts with
  | answer hfocus | round hfocus =>
    rw [hfocus] at hframes
    cases hframes

theorem does_of_updated {c : Config V} {r : Except Error V} {k : Stack V .update}
    (hfocus : c.focus = .updated r k) : c.does k = {} := by
  apply does_eq_empty
  · rw [Waits, hfocus]
    exact Stack.mem_tails_self k
  · rintro (h | h) <;> cases hfocus.symm.trans h

theorem does_of_validating {c : Config V} {i : Id} {k : Stack V .update}
    (hwaits : c.Waits (.validating i k))
    (hopen : ∀ a, c.focus ≠ .run (@Script.stop V .validator a) (.validating i k)) :
    c.does k = {} := by
  apply does_eq_empty (Stack.mem_tails_trans hwaits
    (List.mem_cons_of_mem _ (Stack.mem_tails_self k)))
  intro hacts
  have hframes := hacts.frames_eq hwaits rfl
  cases hacts with
  | answer hfocus =>
    rw [hfocus] at hframes
    cases hframes
    exact hopen _ hfocus
  | round hfocus =>
    rw [hfocus] at hframes
    cases hframes

theorem does_of_updating {c : Config V} {i : Id} {old : V} {k : Stack V .update}
    (hwaits : c.Waits (.updating i old k)) (hopen : ∀ r, c.focus ≠ .rounded r (.updating i old k)) :
    c.does k = {} := by
  apply does_eq_empty (Stack.mem_tails_trans hwaits
    (List.mem_cons_of_mem _ (Stack.mem_tails_self k)))
  intro hacts
  have hframes := hacts.frames_eq hwaits rfl
  cases hacts with
  | answer hfocus =>
    rw [hfocus] at hframes
    cases hframes
  | round hfocus =>
    rw [hfocus] at hframes
    cases hframes
    exact hopen _ hfocus

omit [BEq V] in
/-- A property that is being updated has a value. -/
theorem value?_of_acts {c : Config V} (hc : c.Sound) {k : Stack V .update} (hacts : c.Acts k) :
    ∃ old, c.state.world.value? k.updated = some old := by
  have hshape : c.state.world.shape? k.updated = some .property := by
    have hfits := hc.frames
    cases hacts with
    | answer hfocus | round hfocus =>
      rw [hfocus] at hfits
      exact fits_updated hfits
  obtain ⟨p, hp⟩ := World.shape?_eq_property_iff.1 hshape
  exact ⟨p.value, World.value?_of_property? hp⟩

/-- The reporter has no say in how the update ends. -/
theorem Fails.next {c d : Config V} {hasReporter : Bool} {e : Error} {k : Stack V .update}
    {reports : List Error} (hc : c.Fails hasReporter e k reports) (hstep : c.step = some d)
    (hopen : ∀ r, c.focus ≠ k.given r) :
    d.Fails hasReporter e k reports ∧ c.does k = {} := by
  cases hc with
  | telling hreporter hwaits =>
    subst hreporter
    have hidle := does_eq_empty (Stack.mem_tails_trans hwaits
      (List.mem_cons_of_mem _ (Stack.mem_tails_self k))) (not_acts_of_reporting hwaits)
    refine ⟨?_, hidle⟩
    rcases (Transition.of_step hstep).waits_answer hwaits with ⟨a, hfocus⟩ | ⟨_, hstill⟩
    · obtain ⟨s, f⟩ := c
      cases hfocus
      cases hstep
      exact .ended (.inl rfl)
    · exact .telling rfl hstill
  | ended hended =>
    have hfocus := hended.resolve_right (hopen _)
    obtain ⟨s, hnext, _⟩ := step_of_updated hfocus
    rw [hstep] at hnext
    cases hnext
    exact ⟨.ended (.inr rfl), does_of_updated hfocus⟩

/-- A step takes an update further along its course. -/
theorem Course.next {c d : Config V} {hasReporter : Bool} {k : Stack V .update} {done : Record V}
    (hc : c.Course hasReporter k done) (hsound : c.Sound)
    (hreporter : c.Acts k → (c.state.world.reporter? k.updated).isSome = hasReporter)
    (hstep : c.step = some d) (hopen : ∀ r, c.focus ≠ k.given r) :
    d.Course hasReporter k (done ++ c.does k) := by
  have hmove := Transition.of_step hstep
  cases hc with
  | @validating i hwaits =>
    rcases hmove.waits_answer hwaits with ⟨a, hfocus⟩ | ⟨hopen', hstill⟩
    · cases a with
      | ok w =>
        obtain ⟨o, hold, ⟨heq, hnext⟩ | ⟨hne, s, _, hnext⟩⟩ := hsound.step_of_validated hfocus
        · rw [does_of_validated hfocus hold, if_pos heq]
          rw [hstep] at hnext
          cases hnext
          exact .equal heq (.inl rfl) fun x hx => Option.some.inj (hx.symm.trans hold)
        · rw [does_of_validated hfocus hold, if_neg (by simp [hne])]
          rw [hstep] at hnext
          cases hnext
          exact .announcing hne (List.mem_cons_of_mem _ (Stack.mem_tails_self _))
      | error cause =>
        obtain ⟨o, hold⟩ := value?_of_acts hsound (.answer hfocus)
        have hfailing : c.failing? = some (cause.during .validation, k) := by
          simp [failing?, hfocus]
        have hfails := hsound.fails_of_step hstep hfailing
        rw [does_of_rejected hfocus hold]
        rw [hreporter (.answer hfocus)] at hfails ⊢
        exact .rejected hfails
    · rw [does_of_validating hwaits hopen', Record.append_empty]
      exact .validating hstill
  | rejected hfails =>
    obtain ⟨hnext, hidle⟩ := hfails.next hstep hopen
    rw [hidle, Record.append_empty]
    exact .rejected hnext
  | @equal o w heq hended hvalue =>
    have hfocus := hended.resolve_right (hopen _)
    obtain ⟨s, hnext, houtlived⟩ := step_of_updated hfocus
    rw [hstep] at hnext
    cases hnext
    rw [does_of_updated hfocus, Record.append_empty]
    refine .equal heq (.inr rfl) fun x hx => hvalue x ?_
    rw [World.value?_eq_body?, ← houtlived.body _ (World.alive_of_value? hx),
      ← World.value?_eq_body?]
    exact hx
  | @announcing o w hne hwaits =>
    rcases hmove.waits_rounded hwaits with ⟨r, hfocus⟩ | ⟨hopen', hstill⟩
    · cases r with
      | ok u =>
        rw [does_of_announced hfocus]
        obtain ⟨s, f⟩ := c
        cases hfocus
        cases hstep
        exact .announced hne (.inl rfl)
      | error e =>
        have hfailing : c.failing? = some (e, k) := by simp [failing?, hfocus]
        have hfails := hsound.fails_of_step hstep hfailing
        rw [does_of_failed hfocus]
        rw [hreporter (.round hfocus)] at hfails ⊢
        exact .failed hne hfails
    · rw [does_of_updating hwaits hopen', Record.append_empty]
      exact .announcing hne hstill
  | announced hne hended =>
    have hfocus := hended.resolve_right (hopen _)
    obtain ⟨s, hnext, _⟩ := step_of_updated hfocus
    rw [hstep] at hnext
    cases hnext
    rw [does_of_updated hfocus, Record.append_empty]
    exact .announced hne (.inr rfl)
  | failed hne hfails =>
    obtain ⟨hnext, hidle⟩ := hfails.next hstep hopen
    rw [hidle, Record.append_empty]
    exact .failed hne hnext

/-- An update that has not been answered for waits. -/
theorem Course.waits {c : Config V} {hasReporter : Bool} {k : Stack V .update} {done : Record V}
    (hc : c.Course hasReporter k done) (hopen : ∀ r, c.focus ≠ k.given r) : c.Waits k := by
  have habove : ∀ {a : Awaits} {l : Stack V a}, c.Waits l → ⟨_, k⟩ ∈ l.tails → c.Waits k :=
    fun hl hk => Stack.mem_tails_trans hl hk
  have hended : ∀ {r}, c.Ended r k → c.Waits k := fun h => by
    rw [Waits, h.resolve_right (hopen _)]
    exact Stack.mem_tails_self k
  have hfails : ∀ {e reports}, c.Fails hasReporter e k reports → c.Waits k := fun h => by
    cases h with
    | telling _ hwaits => exact habove hwaits (List.mem_cons_of_mem _ (Stack.mem_tails_self k))
    | ended h => exact hended h
  cases hc with
  | validating hwaits | announcing _ hwaits =>
    exact habove hwaits (List.mem_cons_of_mem _ (Stack.mem_tails_self k))
  | rejected h | failed _ h => exact hfails h
  | equal _ h _ | announced _ h => exact hended h

omit [BEq V] in
theorem Sound.alive_of_waits {c : Config V} (hc : c.Sound) {k : Stack V .update}
    (hwaits : c.Waits k) : c.state.world.alive k.updated = true :=
  hc.alive_of_holds (Stack.mem_holds_of_mem_tails hwaits k.updated_mem_holds)

/-- A property keeps its reporter. -/
theorem Run.reporter?_kept {allowed : Op V → Prop} {later before : List (Config V)}
    {c₀ c : Config V} (hrun : Run allowed (later ++ c₀ :: before) c) {k : Stack V .update}
    (hbegin : c₀.Waits k) (hwaits : c.Waits k) :
    c.state.world.reporter? k.updated = c₀.state.world.reporter? k.updated :=
  hrun.bind_body? Body.isFixed_reporter?
    (World.lt_size_of_alive (hrun.of_append.sound.alive_of_waits hbegin))
    (hrun.sound.alive_of_waits hwaits)

/-- What an update has done since its validator was called, and how far it has come, fit
together. -/
theorem Run.course {allowed : Op V → Prop} {later before : List (Config V)} {c₀ c : Config V}
    (hrun : Run allowed (later ++ c₀ :: before) c) {i : Id} {k : Stack V .update}
    {script : Script V .validator} (hbegin : c₀.focus = .run script (.validating i k))
    (hopen : ∀ d ∈ later, ∀ r, d.focus ≠ k.given r) :
    c.Course (c₀.state.world.reporter? k.updated).isSome k (record k (later ++ [c₀])) := by
  have hfirst : c₀.Course (c₀.state.world.reporter? k.updated).isSome k {} := by
    apply Course.validating (i := i)
    rw [Waits, hbegin]
    exact Stack.mem_tails_self _
  have hwaits₀ : c₀.Waits k := by
    rw [Waits, hbegin]
    exact List.mem_cons_of_mem _ (Stack.mem_tails_self k)
  induction later generalizing c with
  | nil =>
    cases hrun with
    | step hrun hstep =>
      refine hfirst.next hrun.sound (fun _ => rfl) hstep fun r h => ?_
      rw [hbegin] at h
      cases k <;> cases h
    | perform _ hreply _ => cases hwaits₀.eq_idle hreply
  | cons d later ih =>
    have hlater : ∀ d ∈ later, ∀ r, d.focus ≠ k.given r :=
      fun d hd => hopen d (List.mem_cons_of_mem _ hd)
    have hhere := hopen d List.mem_cons_self
    cases hrun with
    | step hrun hstep =>
      refine (ih hrun hlater).next hrun.sound (fun hacts => ?_) hstep hhere
      rw [hrun.reporter?_kept hwaits₀ hacts.waits]
    | perform hrun hreply _ => cases ((ih hrun hlater).waits hhere).eq_idle hreply

/-! ## Beginning and end -/

/-- What begins an update of the property `p` to `v`: a call of `set` that finds the property free,
or a round that comes to its registration. -/
inductive Begins (b : Config V) (p : Property V) (v : V) : Stack V .update → Prop
  | set {name : String} {i : Id} {k : Stack V .reply} (hfocus : b.focus = .operate (.set name v) k)
      (hname : b.state.world.find? name Handle.property? = some i)
      (hp : b.state.world.property? i = some p) (hfree : p.source = none) : Begins b p v (.setting i k)
  | deliver {i observed : Id} {rest : List Registration} {old : V} {k : Stack V .round}
      (hfocus : b.focus = .round (.bound i :: rest) observed old v k)
      (hp : b.state.world.property? i = some p) :
    Begins b p v (.following i (.round rest observed old v k))

theorem Begins.step {b : Config V} {p : Property V} {v : V} {k : Stack V .update}
    (hb : b.Begins p v k) :
    b.state.world.property? k.updated = some p ∧
      b.step = some ⟨b.state, .run (p.validate v) (.validating k.updated k)⟩ := by
  cases hb with
  | set hfocus hname hp hfree => exact ⟨hp, step_set_free hfocus hname hp hfree⟩
  | deliver hfocus hp =>
    refine ⟨hp, ?_⟩
    obtain ⟨s, f⟩ := b
    cases hfocus
    simp only [Config.step, State.call, hp]
    rfl

/-- What an update has done since it began, and how far it has come, fit together. -/
theorem Run.course_of_begins {allowed : Op V → Prop} {later before : List (Config V)}
    {b c : Config V} (hrun : Run allowed (later ++ b :: before) c) {p : Property V} {v : V}
    {k : Stack V .update} (hb : b.Begins p v k) (hopen : ∀ d ∈ later, ∀ r, d.focus ≠ k.given r) :
    c.Course p.report.isSome k (record k later) := by
  obtain ⟨hp, hstep⟩ := hb.step
  have hfirst : ∀ {d}, Run allowed (b :: before) d →
      d = ⟨b.state, .run (p.validate v) (.validating k.updated k)⟩ := by
    intro d hd
    rcases (show Run allowed ([] ++ b :: before) d from hd).eq_or_mem_of_step hstep with h | h
    · exact h
    · cases h
  rcases List.eq_nil_or_concat later with rfl | ⟨rest, c₀, rfl⟩
  · rw [hfirst hrun]
    exact .validating (Stack.mem_tails_self _)
  · rw [List.concat_eq_append] at hrun hopen ⊢
    rw [List.append_assoc] at hrun
    obtain rfl := hfirst hrun.of_append
    have hcourse := hrun.course rfl fun d hd => hopen d (List.mem_append_left _ hd)
    rw [World.reporter?_of_property? hp] at hcourse
    exact hcourse

theorem Waits.iterate_succ {ρ : Role} {c : Config V} {k : Stack V (.answer ρ)} {n : Nat}
    (hwaits : (c.iterate n).Waits k) :
    (∃ a, (c.iterate n).focus = .run (.stop a) k) ∨ (c.iterate (n + 1)).Waits k := by
  rw [iterate_add c n 1]
  cases hstep : (c.iterate n).step with
  | none =>
    rw [iterate_of_step_eq_none hstep]
    exact .inr hwaits
  | some d =>
    have hnext : (c.iterate n).iterate 1 = d := by simp [iterate, hstep]
    rw [hnext]
    exact ((Transition.of_step hstep).waits_answer hwaits).imp_right And.right

/-- A callback ends after some steps, or it goes on for ever. -/
theorem Waits.answers_or {ρ : Role} {c : Config V} {k : Stack V (.answer ρ)} (hwaits : c.Waits k) :
    (∃ n a, (c.iterate n).focus = .run (.stop a) k ∧ ∀ m ≤ n, (c.iterate m).Waits k) ∨
      ∀ n, (c.iterate n).Waits k := by
  by_cases hends : ∃ n a, (c.iterate n).focus = .run (.stop a) k ∧ ∀ m ≤ n, (c.iterate m).Waits k
  · exact .inl hends
  · -- As long as it has waited at all times so far, it has not ended.
    have hso_far : ∀ n, ∀ m ≤ n, (c.iterate m).Waits k := by
      intro n
      induction n with
      | zero =>
        intro m hm
        rw [Nat.le_zero.1 hm]
        exact hwaits
      | succ n ih =>
        intro m hm
        rcases Nat.le_succ_iff.1 hm with hm | rfl
        · exact ih m hm
        · exact (ih n (Nat.le_refl n)).iterate_succ.resolve_left
            fun ⟨a, ha⟩ => hends ⟨n, a, ha, ih⟩
    exact .inr fun n => hso_far n n (Nat.le_refl n)

/-- The reporter that a failed update has called goes on for ever. -/
def Stuck (c : Config V) (e : Error) (k : Stack V .update) : Prop :=
  ∀ n, (c.iterate n).Waits (.reporting k.updated e k)

theorem leads_of_updated {c : Config V} {r : Except Error V} {k : Stack V .update}
    (hfocus : c.focus = .updated r k) : ∃ s, c.Leads ⟨s, k.given r⟩ := by
  obtain ⟨s, hstep, _⟩ := step_of_updated hfocus
  exact ⟨s, .of_step hstep⟩

/-- A failed update gives its failure to what waits for it, unless its reporter never ends. -/
theorem Fails.leads {c : Config V} {hasReporter : Bool} {e : Error} {k : Stack V .update}
    {reports : List Error} (hc : c.Fails hasReporter e k reports) :
    (∃ s, c.Leads ⟨s, k.given (.error e)⟩) ∨ c.Stuck e k := by
  cases hc with
  | telling _ hwaits =>
    refine hwaits.answers_or.imp_left ?_
    rintro ⟨n, a, hfocus, _⟩
    have hstep : (c.iterate n).step = some ⟨(c.iterate n).state, .updated (.error e) k⟩ := by
      rw [step, hfocus]
      rfl
    obtain ⟨s, hgiven⟩ := leads_of_updated (c := ⟨(c.iterate n).state, .updated (.error e) k⟩) rfl
    exact ⟨s, Leads.trans ⟨n, rfl⟩ ((Leads.of_step hstep).trans hgiven)⟩
  | ended hended =>
    left
    rcases hended with hfocus | hfocus
    · exact leads_of_updated hfocus
    · exact ⟨c.state, by rw [← hfocus]; exact .refl c⟩

end Config

end Observable
