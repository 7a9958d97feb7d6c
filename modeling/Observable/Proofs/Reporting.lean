import Observable.Proofs.Relaying

/-!
# What reporters are told

A property's reporter is told of an update exactly if the update fails, once, and of the failure
that the update ends with. It is told when everything else about the update is over, and before the
failure goes on; whatever the reporter does, the same failure goes on. So when a callback fails, the
reporters of the properties that are being updated around it learn of its failure one after the
other, innermost first, up to the operation that returns it, and no other reporter does on behalf of
that operation (`Config.Reports`).
-/

namespace Observable

variable {V : Type}

/-- What the reporter of a property is to be told of an update that ends with `r`. -/
def dueReports (hasReporter : Bool) : Except Error V → List Error
  | .ok _ => []
  | .error e => if hasReporter then [e] else []

namespace Config

/-! ## One update -/

/-- What an update has ended with is told no second time. -/
theorem Ended.dueReports_eq {c : Config V} {r r' : Except Error V} {k : Stack V .update}
    (hr : c.Ended r k) (hr' : c.Ended r' k) (hasReporter : Bool) :
    dueReports hasReporter r = dueReports hasReporter r' := by
  rcases hr with h | h <;> rcases hr' with h' | h'
  · cases h.symm.trans h'
    rfl
  · cases k <;> cases h.symm.trans h'
  · cases k <;> cases h.symm.trans h'
  · cases k <;> cases r <;> cases r' <;> cases h.symm.trans h' <;> rfl

/-- When an update has ended, no frame is above it. -/
theorem Ended.not_waits {c : Config V} {r : Except Error V} {k : Stack V .update}
    (hended : c.Ended r k) {a : Awaits} {l : Stack V a} (hdepth : l.depth = k.depth + 1) :
    ¬ c.Waits l := by
  have hle : c.focus.frames.2.depth ≤ k.depth := by
    rcases hended with h | h
    · rw [h]
      exact Nat.le_refl _
    · rw [h]
      cases k <;> exact Nat.le_succ _
  intro hwaits
  have habove := Stack.depth_le hwaits
  rw [hdepth] at habove
  exact absurd (Nat.le_trans habove hle) (Nat.not_succ_le_self _)

theorem Fails.reports_of_ended {c : Config V} {hasReporter : Bool} {e : Error} {k : Stack V .update}
    {reports : List Error} (hc : c.Fails hasReporter e k reports) {r : Except Error V}
    (hr : c.Ended r k) : reports = dueReports hasReporter r := by
  cases hc with
  | telling _ hwaits => exact absurd hwaits (hr.not_waits rfl)
  | ended hended => exact hended.dueReports_eq hr hasReporter

variable [BEq V]

/-- When an update has ended, its reporter has been told what it was to be told. -/
theorem Course.reports_of_ended {c : Config V} {hasReporter : Bool} {k : Stack V .update}
    {done : Record V} (hc : c.Course hasReporter k done) {r : Except Error V}
    (hr : c.Ended r k) : done.reports = dueReports hasReporter r := by
  cases hc with
  | validating hwaits | announcing _ hwaits => exact absurd hwaits (hr.not_waits rfl)
  | equal _ h _ | announced _ h => exact h.dueReports_eq hr hasReporter
  | rejected h | failed _ h => exact h.reports_of_ended hr

/-- What a reporter is told is what its update is about to end with, and it is called at once. -/
theorem Sound.step_of_told? {c : Config V} (hc : c.Sound) {e : Error} {k : Stack V .update}
    (htold : c.told? = some (e, k)) :
    c.failing? = some (e, k) ∧ ∃ report, c.state.world.reporter? k.updated = some report ∧
      c.step = some ⟨c.state, .run (report e) (.reporting k.updated e k)⟩ := by
  obtain ⟨hfailing, hsome⟩ := Option.filter_eq_some_iff.1 htold
  obtain ⟨p, hp, hstep⟩ := hc.step_of_failed (failing?_cases hfailing)
  have hreport := World.reporter?_of_property? hp
  obtain ⟨report, hreporter⟩ := Option.isSome_iff_exists.1 hsome
  rw [← hreport, hreporter] at hstep
  exact ⟨hfailing, report, hreporter, hstep⟩

/-- No reporter runs unless it is told of an update that has failed. -/
theorem Sound.told?_of_step {c d : Config V} (hc : c.Sound) (hstep : c.step = some d) {i : Id}
    {e : Error} {k : Stack V .update} (hwaits : d.Waits (.reporting i e k)) :
    c.Waits (.reporting i e k) ∨ (i = k.updated ∧ c.told? = some (e, k)) := by
  refine ((Transition.of_step hstep).reporting hwaits).imp_right fun hfailing => ?_
  rcases hc.failed_of_step hstep hfailing with ⟨_, hfocus⟩ | ⟨hsome, hreporting⟩
  · exact absurd hwaits (Ended.not_waits (.inl hfocus) rfl)
  · cases Stack.eq_of_depth hwaits hreporting rfl
    exact ⟨rfl, by rw [told?_of_failing? hfailing, if_pos hsome]⟩

/-- An action, or a call of `set` on a bound property, has its reply at once. -/
theorem Sound.replies_of_operate {c : Config V} (hc : c.Sound) {op : Op V} {k : Stack V .reply}
    (hfocus : c.focus = .operate op k)
    (hop : (∃ a, op = .act a) ∨ ∃ name v i, op = .set name v ∧
      c.state.world.find? name Handle.property? = some i ∧ c.state.world.isBound i = true) :
    c.told? = none ∧ ∃ s r, c.step = some ⟨s, .reply r k⟩ := by
  refine ⟨by simp [told?, failing?, hfocus], ?_⟩
  rcases hop with ⟨a, rfl⟩ | ⟨name, v, i, rfl, hname, hbound⟩
  · obtain ⟨s, f⟩ := c
    cases hfocus
    exact ⟨_, _, rfl⟩
  · obtain ⟨p, hp⟩ := World.shape?_eq_property_iff.1 (hc.world.shape?_of_property hname)
    rw [World.isBound_of_property? hp] at hbound
    exact ⟨_, _, step_set_bound hfocus hname hp hbound⟩

/-- An update is in progress because it was begun. -/
theorem Run.begun {allowed : Op V → Prop} {past : List (Config V)} {c : Config V}
    (hrun : Run allowed past c) {k : Stack V .update} (hwaits : c.Waits k) :
    Since past k fun b => ∃ p v, b.Begins p v k := by
  induction hrun with
  | start hop => cases List.mem_singleton.1 hwaits
  | perform hrun hreply hop ih => cases List.mem_singleton.1 hwaits
  | @step past c d hrun hstep ih =>
    have hmove := Transition.of_step hstep
    rcases hmove.pushes hwaits with hbefore | hpushes
    · exact (ih hbefore).cons hbefore
    · cases hpushes with
      | @setting name v i l hfocus hname =>
        obtain ⟨p, hp⟩ := World.shape?_eq_property_iff.1
          (hrun.sound.world.shape?_of_property hname)
        cases hsource : p.source with
        | none => exact .of_last _ ⟨p, v, .set hfocus hname hp hsource⟩
        | some u =>
          -- Nothing is put above an operation that is refused.
          rw [step_set_bound hfocus hname hp (by rw [hsource]; rfl)] at hstep
          cases hstep
          exact absurd hwaits (Stack.setting_not_mem_tails i l)
      | @following i rest observed old new l hfocus =>
        cases hp : c.state.world.property? i with
        | some p => exact .of_last _ ⟨p, new, .deliver hfocus hp⟩
        | none =>
          obtain ⟨s, f⟩ := c
          cases hfocus
          cases hmove with
          | boundGone =>
            have hle := Stack.depth_le hwaits
            exact absurd hle (Nat.not_succ_le_self _)
          | deliver _ _ _ _ _ hp' => cases hp.symm.trans hp'

/-! ## The failure of an operation -/

omit [BEq V] in
theorem raised?_fail (s : State V) (e : Error) (k : Stack V .update) :
    (s.fail e k).raised? = none :=
  State.fail_cases (P := fun d => d.raised? = none) rfl fun _ _ _ _ => rfl

/-- While a failure is on its way to an operation, no other callback fails for that operation. -/
theorem Unwinds.not_raised {c d : Config V} {e e' : Error} {k : Stack V .reply} {left : List Id}
    (hc : c.Unwinds e k left) (hstep : c.step = some d) (hraised : d.raised? = some e') :
    d.focus.frames.2.caller ≠ k := by
  cases hc with
  | raised hraised' hk =>
    obtain ⟨s, f⟩ := c
    rcases raised?_cases hraised' with ⟨i, cause, u, _, hfocus⟩ | ⟨cause, l, _, hfocus⟩
    · cases hfocus
      cases hstep
      exact absurd ((raised?_fail ..).symm.trans hraised) nofun
    · cases hfocus
      cases hstep
      cases hraised
  | @called l hfocus hk =>
    obtain ⟨s, f⟩ := c
    cases hfocus
    cases l
    cases hstep
    cases hraised
  | @rounded l hfocus hk =>
    obtain ⟨s, f⟩ := c
    cases hfocus
    cases l with
    | updating i old u =>
      cases hstep
      exact absurd ((raised?_fail ..).symm.trans hraised) nofun
    | recomputing | notifying =>
      cases hstep
      cases hraised
  | @updated u hfocus hk =>
    obtain ⟨s, hnext, _⟩ := step_of_updated hfocus
    rw [hstep] at hnext
    cases hnext
    cases u <;> cases hraised
  | @reporting i u hwaits hk =>
    subst hk
    rcases (Transition.of_step hstep).waits_answer hwaits with ⟨a, hfocus⟩ | ⟨_, hstill⟩
    · obtain ⟨s, f⟩ := c
      cases hfocus
      cases hstep
      cases hraised
    · -- What fails while the reporter runs, fails for an operation that the reporter performs.
      have hlt : (Stack.reporting i e u).depth < d.focus.frames.2.caller.depth := by
        unfold Waits at hstill
        rcases raised?_cases hraised with ⟨j, cause, l, _, hfocus⟩ | ⟨cause, l, _, hfocus⟩ <;>
          (rw [hfocus] at hstill ⊢
           exact (Stack.depth_lt_caller hstill).resolve_left fun h => by cases h)
      intro heq
      rw [heq] at hlt
      exact absurd (Stack.depth_le u.caller_mem_tails) (Nat.not_le_of_lt (Nat.lt_of_succ_lt hlt))

/-- A callback fails for an operation once at most. -/
theorem Run.not_raised {allowed : Op V → Prop} {later before : List (Config V)} {c₀ c : Config V}
    (hrun : Run allowed (later ++ c₀ :: before) c) {e e' : Error} {k : Stack V .reply}
    {all : List Id} (hbegin : c₀.Unwinds e k all) (hopen : ∀ d ∈ later, ∀ r, d.focus ≠ .reply r k)
    (hraised : c.raised? = some e') : c.focus.frames.2.caller ≠ k := by
  cases later with
  | nil =>
    cases hrun with
    | step _ hstep => exact hbegin.not_raised hstep hraised
    | perform => cases hraised
  | cons d later =>
    cases hrun with
    | step hrun hstep =>
      obtain ⟨_, _, _, _, hunwinds | ⟨_, hfocus⟩⟩ :=
        hrun.unwound hbegin fun d hd => hopen d (List.mem_cons_of_mem _ hd)
      · exact hunwinds.not_raised hstep hraised
      · exact absurd hfocus (hopen d List.mem_cons_self _)
    | perform => cases hraised

/-- An operation is in progress until it has its reply. -/
theorem Run.waits_of_operate {allowed : Op V → Prop} {later before : List (Config V)}
    {b c : Config V} (hrun : Run allowed (later ++ b :: before) c) {op : Op V} {k : Stack V .reply}
    (hfocus : b.focus = .operate op k) (hopen : ∀ d ∈ later, ∀ r, d.focus ≠ .reply r k) :
    c.Waits k := by
  induction later generalizing c with
  | nil =>
    cases hrun with
    | step _ hstep =>
      exact (Transition.of_step hstep).waits_of_operate hfocus (Stack.mem_tails_self k)
    | perform _ hreply _ =>
      obtain ⟨r, hr⟩ := isSome_reply?_iff.1 hreply
      cases hfocus.symm.trans hr
  | cons d later ih =>
    have hlater : ∀ d ∈ later, ∀ r, d.focus ≠ .reply r k :=
      fun d hd => hopen d (List.mem_cons_of_mem _ hd)
    cases hrun with
    | step hrun hstep =>
      have hmove := Transition.of_step hstep
      refine (hmove.waits (ih hrun hlater)).elim (fun hframes => ?_) id
      obtain ⟨s, f⟩ := d
      cases f with
      | operate op' k' =>
        cases hframes
        exact hmove.waits_of_operate rfl (Stack.mem_tails_self k)
      | reply r k' =>
        cases hframes
        exact absurd rfl (hopen _ List.mem_cons_self r)
      | _ => cases hframes
    | perform hrun hreply _ =>
      obtain ⟨r, hr⟩ := isSome_reply?_iff.1 hreply
      have hwaits := ih hrun hlater
      rw [Waits, hr] at hwaits
      cases List.mem_singleton.1 hwaits
      exact absurd hr (hopen d List.mem_cons_self r)

/-- As long as no callback has failed for an operation, nothing has been reported on its behalf. -/
theorem Run.reportsFor_eq_nil {allowed : Op V → Prop} {later before : List (Config V)}
    {b c : Config V} (hrun : Run allowed (later ++ b :: before) c) {op : Op V} {k : Stack V .reply}
    (hfocus : b.focus = .operate op k) (hopen : ∀ d ∈ later, ∀ r, d.focus ≠ .reply r k)
    (hquiet : ∀ d ∈ later, ∀ e, d.raised? = some e → d.focus.frames.2.caller ≠ k) :
    reportsFor k later = [] := by
  rw [reportsFor, List.filterMap_eq_nil_iff]
  intro d hd
  rw [List.mem_reverse] at hd
  obtain ⟨after, between, rfl⟩ := List.append_of_mem hd
  rw [List.append_assoc] at hrun
  have hrun := hrun.of_append
  have hbetween : ∀ {x}, x ∈ d :: between → x ∈ after ++ d :: between :=
    List.mem_append_right _
  rw [reportFor?, Option.map_eq_none_iff, Option.filter_eq_none_iff]
  rintro ⟨e, u⟩ htold hdepth
  have hwaits := hrun.waits_of_operate hfocus fun x hx => hopen x (hbetween (.tail _ hx))
  have hfailing := (Option.filter_eq_some_iff.1 htold).1
  have hu : u.caller = k := by
    have hcaller := Stack.mem_tails_trans (acts_of_failing? hfailing).waits u.caller_mem_tails
    cases Stack.eq_of_depth hcaller hwaits (of_decide_eq_true hdepth)
    rfl
  obtain ⟨after', c₀, between', hsplit, hraised, hk⟩ :=
    hrun.raised_since hfocus (hu ▸ Unwinds.of_failing? hfailing)
  exact hquiet c₀ (hbetween (by rw [hsplit]; simp)) e hraised hk

/-- Once a callback has failed for an operation, its failure has been reported by the properties
that it has passed, and nothing else has been reported on behalf of the operation. -/
theorem Run.reportsFor_of_raised {allowed : Op V → Prop} {after between before : List (Config V)}
    {b c₀ c : Config V} (hrun : Run allowed (after ++ c₀ :: (between ++ b :: before)) c) {op : Op V}
    {k : Stack V .reply} (hfocus : b.focus = .operate op k)
    (hopen : ∀ d ∈ after ++ c₀ :: between, ∀ r, d.focus ≠ .reply r k) {e : Error}
    (hraised : c₀.raised? = some e) (hk : c₀.focus.frames.2.caller = k) :
    ∃ gone left, c₀.focus.frames.2.updates = gone ++ left ∧
      reportsFor k (after ++ c₀ :: between) =
        (gone.filter fun i => (c₀.state.world.reporter? i).isSome).map (·, e) ∧
      (c.Unwinds e k left ∨ (left = [] ∧ c.focus = .reply (.failed e) k)) := by
  have hquiet : ∀ d ∈ between, ∀ e', d.raised? = some e' → d.focus.frames.2.caller ≠ k := by
    intro d hd e' hraised' hk'
    obtain ⟨later', earlier, rfl⟩ := List.append_of_mem hd
    have hthen := hrun.of_append
    rw [List.append_assoc] at hthen
    exact hthen.not_raised (.raised hraised' hk') (fun x hx => hopen x (by simp [hx])) hraised hk
  have hnone := hrun.of_append.reportsFor_eq_nil hfocus
    (fun d hd => hopen d (List.mem_append_right _ (.tail _ hd))) hquiet
  obtain ⟨gone, left, hupdates, hreports, hstate⟩ :=
    hrun.unwound (.raised hraised hk) fun d hd => hopen d (List.mem_append_left _ hd)
  refine ⟨gone, left, hupdates, ?_, hstate⟩
  rw [← hreports]
  have happend : ∀ l : List (Config V), reportsFor k (l ++ between) =
      reportsFor k between ++ reportsFor k l := by
    intro l
    rw [reportsFor, List.reverse_append, List.filterMap_append]
    rfl
  rw [List.append_cons, happend, hnone, List.nil_append]

/-! ## Reporting -/

/-- What reporters are told, given the past of a run. -/
structure Reports (past : List (Config V)) (c : Config V) : Prop where
  /-- An update begins with a call of `set` that finds its property free, or when a round comes to
  it. When it has ended, its property's reporter has been told of its failure, once, or of nothing
  if it has not failed; before its validator or its round has failed, of nothing either. -/
  updates : ∀ later b before p v k, past = later ++ b :: before → b.Begins p v k →
    (∀ d ∈ later, ∀ r, d.focus ≠ k.given r) →
    c.Course p.report.isSome k (record k later) ∧
      ∀ r, c.Ended r k → (record k later).reports = dueReports p.report.isSome r
  /-- A reporter that is told is called at once. Its update is in progress and about to end with
  that failure, and whatever reporters run then are below the update. -/
  told : ∀ e k, c.told? = some (e, k) → c.failing? = some (e, k) ∧
    (∃ later b before p v, past = later ++ b :: before ∧ b.Begins p v k ∧
      ∀ d ∈ later, ∀ r, d.focus ≠ k.given r) ∧
    (∀ i e' l, c.Waits (.reporting i e' l) → ⟨_, .reporting i e' l⟩ ∈ k.tails) ∧
    ∃ report, c.state.world.reporter? k.updated = some report ∧
      c.step = some ⟨c.state, .run (report e) (.reporting k.updated e k)⟩
  /-- No reporter is called unless it is told. -/
  only : ∀ d i e k, c.step = some d → d.Waits (.reporting i e k) →
    c.Waits (.reporting i e k) ∨ (i = k.updated ∧ c.told? = some (e, k))
  /-- Actions and calls of `set` on bound properties have their replies, failures or not, before a
  reporter could be called. -/
  immediate : ∀ op k, c.focus = .operate op k →
    ((∃ a, op = .act a) ∨ ∃ name v i, op = .set name v ∧
      c.state.world.find? name Handle.property? = some i ∧ c.state.world.isBound i = true) →
    c.told? = none ∧ ∃ s r, c.step = some ⟨s, .reply r k⟩
  /-- As long as no callback has failed for an operation, nothing is reported on its behalf. -/
  unraised : ∀ later b before op k, past = later ++ b :: before → b.focus = .operate op k →
    (∀ d ∈ later, ∀ r, d.focus ≠ .reply r k) →
    (∀ d ∈ later, ∀ e, d.raised? = some e → d.focus.frames.2.caller ≠ k) → reportsFor k later = []
  /-- When a callback has failed for an operation, the reporters of the properties that were being
  updated then are told of that failure and of nothing else on behalf of the operation, each once,
  innermost first. When the operation has its reply, which is the same failure, none is left. -/
  chain : ∀ after c₀ between b before op k e, past = after ++ c₀ :: (between ++ b :: before) →
    b.focus = .operate op k → (∀ d ∈ after ++ c₀ :: between, ∀ r, d.focus ≠ .reply r k) →
    c₀.raised? = some e → c₀.focus.frames.2.caller = k →
    ∃ gone left, c₀.focus.frames.2.updates = gone ++ left ∧
      reportsFor k (after ++ c₀ :: between) =
        (gone.filter fun i => (c₀.state.world.reporter? i).isSome).map (·, e) ∧
      (c.Unwinds e k left ∨ (left = [] ∧ c.focus = .reply (.failed e) k))

omit [BEq V] in
theorem Waits.focus_ne_given {c : Config V} {k : Stack V .update} (hwaits : c.Waits k)
    (r : Except Error V) : c.focus ≠ k.given r := by
  intro hfocus
  rw [Waits, hfocus] at hwaits
  have hle := Stack.depth_le hwaits
  cases k <;> exact absurd hle (Nat.not_succ_le_self _)

/-- In every run, whatever callbacks do, reporting is exact. -/
theorem Run.reports {allowed : Op V → Prop} {past : List (Config V)} {c : Config V}
    (hrun : Run allowed past c) : c.Reports past := by
  constructor
  case updates =>
    rintro later b before p v k rfl hbegins hopen
    have hcourse := hrun.course_of_begins hbegins hopen
    exact ⟨hcourse, fun r hr => hcourse.reports_of_ended hr⟩
  case told =>
    intro e k htold
    obtain ⟨hfailing, hcalled⟩ := hrun.sound.step_of_told? htold
    obtain ⟨later, b, before, hpast, ⟨p, v, hbegins⟩, hlater⟩ :=
      hrun.begun (acts_of_told? htold).waits
    exact ⟨hfailing,
      ⟨later, b, before, p, v, hpast, hbegins, fun d hd => (hlater d hd).focus_ne_given⟩,
      fun _ _ _ => mem_tails_of_told? htold, hcalled⟩
  case only => exact fun d i e k hstep hwaits => hrun.sound.told?_of_step hstep hwaits
  case immediate => exact fun op k hfocus hop => hrun.sound.replies_of_operate hfocus hop
  case unraised =>
    rintro later b before op k rfl hfocus hopen hquiet
    exact hrun.reportsFor_eq_nil hfocus hopen hquiet
  case chain =>
    rintro after c₀ between b before op k e rfl hfocus hopen hraised hk
    exact hrun.reportsFor_of_raised hfocus hopen hraised hk

/-- A property that a binding follows is set, and a validator fails two updates further down. The
reporters hear of it on both ends, and not the property between them, which has none. One of them
meanwhile sets another property, whose reporter hears of another failure. -/
theorem reports_nested : ∃ (later before : List (Config Nat)) (c₀ c : Config Nat),
    Run (fun _ => True) (later ++ c₀ :: before) c ∧ c₀.focus = .operate (.set "p" 1) .idle ∧
      reportsFor .idle later = [(3, .failed .validation "no"), (0, .failed .validation "no")] ∧
      (later.filterMap told?).map (fun x => (x.2.updated, x.1)) =
        [(0, .failed .validation "no"), (4, .failed .validation "never"),
          (3, .failed .validation "no")] ∧
      c.focus = .reply (.failed (.failed .validation "no")) .idle ∧
      c.Reports (later ++ c₀ :: before) := by
  have hsource : Run (fun _ => True) _ (start {} (.act (.property "p" 0 (fun v => .stop (.ok v))
      (some fun _ => .stop ())))) := .start trivial
  have hbinding : Run (fun _ => True) _ (start _ (.wrap "p" "q" fun v => .stop (v + 1))) :=
    (hsource.step rfl).perform rfl trivial
  have hmiddle : Run (fun _ => True) _
      (start _ (.act (.property "r" 0 (fun v => .stop (.ok v)) none))) :=
    ((hbinding.step rfl).step rfl).perform rfl trivial
  have hlast : Run (fun _ => True) _ (start _ (.act (.property "t" 0
      (fun _ => .stop (.error (.text "no"))) (some fun _ =>
        .perform (.set "o" 1) fun _ => .stop ())))) := (hmiddle.step rfl).perform rfl trivial
  have hother : Run (fun _ => True) _ (start _ (.act (.property "o" 0
      (fun _ => .stop (.error (.text "never"))) (some fun _ => .stop ())))) :=
    (hlast.step rfl).perform rfl trivial
  have hbindMiddle : Run (fun _ => True) _ (start _ (.act (.bind "r" "q"))) :=
    (hother.step rfl).perform rfl trivial
  have hbindLast : Run (fun _ => True) _ (start _ (.act (.bind "t" "r"))) :=
    (hbindMiddle.step rfl).perform rfl trivial
  have hset : Run (fun _ => True) _ (start _ (.set "p" 1)) :=
    (hbindLast.step rfl).perform rfl trivial
  have hend := (hset.step rfl).iterate 25
  exact ⟨_, _, _, _, hend, rfl, rfl, rfl, rfl, hend.reports⟩

end Config

end Observable
