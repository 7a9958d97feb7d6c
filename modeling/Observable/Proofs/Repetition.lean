import Observable.Proofs.Commuting
import Observable.Proofs.Updates

/-!
# Setting a property again

In a quiet run, a free property that has just been set to `v` can be set to `v` again without any
effect, whatever the first call returned (`Config.Run.set_again`). If the first call failed in a
listener or further down, its value was written all the same, and what the failure kept from being
reached is not reached by the second call either.

The value of the property itself survives its own round, because a change does not come back to the
object at which it began. So the second call finds the value that its validator answers with, and
what it does can be followed step by step along its path (`Config.Takes`).
-/

namespace Observable

variable {V : Type}

/-! ## What runs -/

/-- No registration is called, and of all callbacks only those run for which one of the given frames
waits. -/
def Focus.RunsOnly (frames : List ((ρ : Role) × Stack V (.answer ρ))) : Focus V → Prop
  | @Focus.run _ ρ _ k => ⟨ρ, k⟩ ∈ frames
  | .round _ _ _ _ _ => False
  | _ => True

theorem Focus.RunsOnly.mono {frames frames' : List ((ρ : Role) × Stack V (.answer ρ))}
    {f : Focus V} (hf : f.RunsOnly frames) (hsub : frames ⊆ frames') : f.RunsOnly frames' := by
  cases f with
  | run script k => exact hsub hf
  | round => exact hf
  | _ => trivial

/-- What the reporter of a property emits when it is told of a failure. -/
def Property.tells (p : Property V) (e : Error) : List (Event V) :=
  match p.report.bind fun report => (report e).outcome? with
  | none => []
  | some (events, _) => events

/-! ## What the first call leaves -/

namespace State

variable [BEq V]

/-- After the walk from an object, the object has the value that was passed on. -/
theorem value?_spread_self {lists : Id → List Registration} {i : Id} (h : Acc (Feeds lists) i)
    {s : State V} (old : V) {new : V} (hvalue : s.world.value? i = some new) :
    (spread lists i h s old new).1.world.value? i = some new := by
  rw [(rewritten_spread h s old new).value i (not_downstream_self h)]
  exact hvalue

/-- However the update of a property ends, the property then has the value that its validator
answered with, or one that equals it. -/
theorem value?_updateBy {lists : Id → List Registration} {i : Id} (h : Acc (Feeds lists) i)
    {s t : State V} {p : Property V} {v w : V} {events : List (Event V)} {r : Except Error V}
    (hp : s.world.property? i = some p)
    (houtcome : (p.validate v).outcome? = some (events, .ok w)) (hself : (w == w) = true)
    (hwalk : s.updateBy (spread lists i h) i v = (t, r)) :
    ∃ u, t.world.value? i = some u ∧ (u == w) = true := by
  have hsettle : s.settle (p.validate v) =
      ({ s with log := s.log ++ events }, some (.ok w)) := by
    simp [settle, houtcome]
  have hold := World.value?_of_property? hp
  rw [updateBy_of_settle hp hsettle] at hwalk
  split at hwalk
  · next heq =>
    cases hwalk
    exact ⟨p.value, hold, heq⟩
  · have hspread := value?_spread_self h p.value
      (s := { s with world := s.world.store i w, log := s.log ++ events })
      (World.value?_store_self hold w)
    refine ⟨w, ?_, hself⟩
    unfold writeBy at hwalk
    split at hwalk
    · next t' u hdone =>
      cases hwalk
      rw [hdone] at hspread
      exact hspread
    · next t' e hfailed =>
      rw [hfailed] at hspread
      have hworld := t'.world_report p e
      rw [hwalk] at hworld
      rw [hworld]
      exact hspread

/-- However the update of a property ends, nothing of the property but its value is changed. -/
theorem property?_updateBy {lists : Id → List Registration} {i : Id} (h : Acc (Feeds lists) i)
    {s t : State V} {p : Property V} {v : V} {r : Except Error V}
    (hp : s.world.property? i = some p) (hwalk : s.updateBy (spread lists i h) i v = (t, r)) :
    ∃ u, t.world.property? i = some { p with value := u } ∧ t.world.names = s.world.names := by
  have hrewritten := @rewritten_updateBy V (fun _ => True) _ _ i trivial
    (fun s old new => (rewritten_spread h s old new).mono fun _ _ => trivial) s v
  rw [hwalk] at hrewritten
  obtain ⟨u, hu⟩ := hrewritten.property? hp
  exact ⟨u, hu, hrewritten.names⟩

/-- A rejected value is reported and nothing else. -/
theorem updateBy_rejected (spread : State V → V → V → State V × Except Error Unit) {s : State V}
    {i : Id} {p : Property V} {v : V} {events : List (Event V)} {cause : Cause}
    (hp : s.world.property? i = some p)
    (houtcome : (p.validate v).outcome? = some (events, .error cause)) :
    (s.updateBy spread i v).2 = .error (cause.during .validation) := by
  simp [updateBy, hp, settle, houtcome, snd_report]

end State

namespace Config

variable [BEq V]

/-! ## Paths -/

theorem trail_add (c : Config V) (m n : Nat) :
    trail (m + n) c = trail n (c.iterate m) ++ trail m c := by
  induction m generalizing c with
  | zero => simp [trail, iterate]
  | succ m ih =>
    rw [Nat.succ_add]
    cases hstep : c.step with
    | none => cases n <;> simp [trail, iterate, hstep]
    | some d => simp [trail, iterate, hstep, ih]

/-- Steps lead from one configuration to another and go through those of the path, latest first. -/
def Takes (path : List (Config V)) (c d : Config V) : Prop :=
  ∃ n, c.iterate n = d ∧ c.trail n = path

theorem Takes.refl (c : Config V) : Takes [] c c := ⟨0, rfl, rfl⟩

theorem Takes.trans {p q : List (Config V)} {c d e : Config V} (hfirst : Takes p c d)
    (hsecond : Takes q d e) : Takes (q ++ p) c e := by
  obtain ⟨m, rfl, rfl⟩ := hfirst
  obtain ⟨n, rfl, rfl⟩ := hsecond
  exact ⟨m + n, iterate_add c m n, trail_add c m n⟩

theorem Takes.of_step {c d : Config V} (hstep : c.step = some d) : Takes [c] c d :=
  ⟨1, by simp [iterate, hstep], by simp [trail, hstep]⟩

/-- A passive callback emits its events, one in each step, before it answers. -/
theorem takes_of_outcome? {ρ : Role} {script : Script V ρ} {events : List (Event V)}
    {a : Answer V ρ} (houtcome : script.outcome? = some (events, a)) (s : State V)
    (k : Stack V (.answer ρ)) :
    ∃ path, Takes path ⟨s, .run script k⟩ ⟨{ s with log := s.log ++ events }, .run (.stop a) k⟩ ∧
      ∀ d ∈ path, ∃ e rest, d.focus = .run (.emit e rest) k := by
  induction events generalizing script s with
  | nil =>
    cases script with
    | stop b =>
      cases houtcome
      exact ⟨[], by simpa using Takes.refl _, by simp⟩
    | emit e rest =>
      rw [Script.outcome?_emit] at houtcome
      obtain ⟨x, _, hx⟩ := Option.map_eq_some_iff.1 houtcome
      cases hx
    | perform op next => cases houtcome
  | cons e events ih =>
    cases script with
    | stop b => cases houtcome
    | emit e' rest =>
      rw [Script.outcome?_emit] at houtcome
      obtain ⟨⟨later, b⟩, hrest, hx⟩ := Option.map_eq_some_iff.1 houtcome
      cases hx
      obtain ⟨path, htakes, hemits⟩ := ih hrest (s.emit e)
      have hstep : Config.step ⟨s, .run (.emit e rest) k⟩ = some ⟨s.emit e, .run rest k⟩ := rfl
      refine ⟨path ++ [⟨s, .run (.emit e rest) k⟩], ?_, ?_⟩
      · have hall := (Takes.of_step hstep).trans htakes
        simpa [State.emit] using hall
      · intro d hd
        rcases List.mem_append.1 hd with hd | hd
        · exact hemits d hd
        · cases List.mem_singleton.1 hd
          exact ⟨e, rest, rfl⟩
    | perform op next => cases houtcome

/-! ## The second call -/

/-- Setting the property `i`, which is `p`, to `v` from outside changes nothing in the world of `s`;
the call that led to `s` returned `r`. -/
structure Repeated (s : State V) (name : String) (i : Id) (p : Property V) (v : V) (r : Reply V) :
    Prop where
  /-- The validator of the property accepts or rejects the value. -/
  answered : ((p.validate v).outcome?).isSome = true
  /-- If it accepts, the stored value is returned, and the validator is all that runs. -/
  accepted : ∀ events w, (p.validate v).outcome? = some (events, .ok w) →
    ∃ u path, s.world.value? i = some u ∧ (u == w) = true ∧
      Takes path (start s (.set name v))
        ⟨{ s with log := s.log ++ events }, .reply (.done (.value u)) .idle⟩ ∧
      ∀ d ∈ path, d.focus.RunsOnly [⟨.validator, .validating i (.setting i .idle)⟩]
  /-- If it rejects, the same failure is returned again, and only the reporter of the property runs
  besides the validator, which it does once if there is one. -/
  rejected : ∀ events cause, (p.validate v).outcome? = some (events, .error cause) →
    r = .failed (cause.during .validation) ∧ ∃ path,
      Takes path (start s (.set name v))
        ⟨{ s with log := s.log ++ events ++ p.tells (cause.during .validation) },
          .reply (.failed (cause.during .validation)) .idle⟩ ∧
      (∀ d ∈ path, d.focus.RunsOnly [⟨.validator, .validating i (.setting i .idle)⟩,
        ⟨.reporter, .reporting i (cause.during .validation) (.setting i .idle)⟩]) ∧
      path.filterMap told? =
        if p.report.isSome then [(cause.during .validation, .setting i .idle)] else []

section

variable {s : State V} {name : String} {i : Id} {p : Property V} {v : V}

/-- The call asks the validator, which emits its events and answers. -/
theorem takes_answer (hname : s.world.find? name Handle.property? = some i)
    (hp : s.world.property? i = some p) (hfree : p.source = none) {events : List (Event V)}
    {a : Except Cause V} (houtcome : (p.validate v).outcome? = some (events, a)) :
    ∃ path, Takes path (start s (.set name v))
        ⟨{ s with log := s.log ++ events },
          .run (@Script.stop V .validator a) (.validating i (.setting i .idle))⟩ ∧
      (∀ d ∈ path, d.focus.RunsOnly [⟨.validator, .validating i (.setting i .idle)⟩]) ∧
      path.filterMap told? = [] := by
  obtain ⟨path, htakes, hemits⟩ :=
    takes_of_outcome? houtcome s (.validating i (.setting i .idle))
  have hbegin : Takes [start s (.set name v)] (start s (.set name v))
      ⟨s, .run (p.validate v) (.validating i (.setting i .idle))⟩ :=
    .of_step (step_set_free rfl hname hp hfree)
  refine ⟨path ++ [start s (.set name v)], hbegin.trans htakes, ?_, ?_⟩
  · intro d hd
    rcases List.mem_append.1 hd with hd | hd
    · obtain ⟨e, rest, hfocus⟩ := hemits d hd
      rw [hfocus]
      exact List.mem_singleton_self _
    · cases List.mem_singleton.1 hd
      trivial
  · rw [List.filterMap_eq_nil_iff]
    intro d hd
    rcases List.mem_append.1 hd with hd | hd
    · obtain ⟨e, rest, hfocus⟩ := hemits d hd
      simp [told?, failing?, hfocus]
    · cases List.mem_singleton.1 hd
      rfl

/-- The end of an update from outside is the reply to it. -/
theorem takes_reply (hnamed : ∀ j, s.world.alive j = true → s.world.names.holds j = true)
    (r : Except Error V) :
    Takes [⟨s, .updated r (.setting i .idle)⟩] ⟨s, .updated r (.setting i .idle)⟩
      ⟨s, .reply (.ofUpdate r) .idle⟩ := by
  apply Takes.of_step
  show some (s.afterUpdate r (.setting i .idle)) = _
  simp only [State.afterUpdate, release_of_named hnamed]
  rfl

/-- An accepted value that equals the stored one is not written, and the stored one is returned. -/
theorem takes_accepted (hp : s.world.property? i = some p) {w : V} (heq : (p.value == w) = true)
    (hnamed : ∀ j, s.world.alive j = true → s.world.names.holds j = true) :
    ∃ path, Takes path
        ⟨s, .run (@Script.stop V .validator (.ok w)) (.validating i (.setting i .idle))⟩
        ⟨s, .reply (.done (.value p.value)) .idle⟩ ∧
      ∀ d ∈ path, d.focus.RunsOnly [⟨.validator, .validating i (.setting i .idle)⟩] := by
  have hcommit : s.commit w (.setting i .idle) = ⟨s, .updated (.ok p.value) (.setting i .idle)⟩ := by
    simp [State.commit, Stack.updated, World.value?_of_property? hp, heq]
  have hstep : Config.step
      ⟨s, .run (@Script.stop V .validator (.ok w)) (.validating i (.setting i .idle))⟩ =
        some ⟨s, .updated (.ok p.value) (.setting i .idle)⟩ := congrArg some hcommit
  refine ⟨_, (Takes.of_step hstep).trans (takes_reply hnamed _), ?_⟩
  intro d hd
  simp only [List.singleton_append, List.mem_cons, List.not_mem_nil, or_false] at hd
  rcases hd with rfl | rfl
  · trivial
  · exact List.mem_singleton_self _

/-- A failure is told to the reporter, if there is one. -/
theorem takes_fail (hp : s.world.property? i = some p) (hpassive : p.IsPassive) (e : Error) :
    ∃ path, Takes path (s.fail e (.setting i .idle))
        ⟨{ s with log := s.log ++ p.tells e }, .updated (.error e) (.setting i .idle)⟩ ∧
      ∀ d ∈ path, ∃ script : Script V .reporter,
        d.focus = .run script (.reporting i e (.setting i .idle)) := by
  unfold State.fail Property.tells
  rw [Stack.updated, hp, Option.bind_some]
  cases hreport : p.report with
  | none => exact ⟨[], by simpa using Takes.refl _, by simp⟩
  | some report =>
    have hscript := hpassive.report report (by rw [hreport]; rfl) e
    obtain ⟨⟨events, a⟩, houtcome⟩ := Option.isSome_iff_exists.1 hscript
    obtain ⟨path, htakes, hemits⟩ := takes_of_outcome? houtcome s (.reporting i e (.setting i .idle))
    have hlast : Config.step ⟨{ s with log := s.log ++ events },
        .run (@Script.stop V .reporter a) (.reporting i e (.setting i .idle))⟩ =
          some ⟨{ s with log := s.log ++ events }, .updated (.error e) (.setting i .idle)⟩ := rfl
    simp only [Option.bind_some, houtcome]
    refine ⟨_, htakes.trans (.of_step hlast), ?_⟩
    intro d hd
    rcases List.mem_cons.1 hd with rfl | hd
    · exact ⟨_, rfl⟩
    · obtain ⟨e', rest, hfocus⟩ := hemits d hd
      exact ⟨_, hfocus⟩

/-- A rejected value is not written, and the failure is told and then returned. -/
theorem takes_rejected (hp : s.world.property? i = some p) (hpassive : p.IsPassive) (cause : Cause)
    (hnamed : ∀ j, s.world.alive j = true → s.world.names.holds j = true) :
    ∃ path, Takes path
        ⟨s, .run (@Script.stop V .validator (.error cause)) (.validating i (.setting i .idle))⟩
        ⟨{ s with log := s.log ++ p.tells (cause.during .validation) },
          .reply (.failed (cause.during .validation)) .idle⟩ ∧
      (∀ d ∈ path, d.focus.RunsOnly [⟨.validator, .validating i (.setting i .idle)⟩,
        ⟨.reporter, .reporting i (cause.during .validation) (.setting i .idle)⟩]) ∧
      path.filterMap told? =
        if p.report.isSome then [(cause.during .validation, .setting i .idle)] else [] := by
  have hfail : Config.step
      ⟨s, .run (@Script.stop V .validator (.error cause)) (.validating i (.setting i .idle))⟩ =
        some (s.fail (cause.during .validation) (.setting i .idle)) := rfl
  have htold := told?_of_failing? (k := .setting i .idle) (e := cause.during .validation)
    (c := ⟨s, .run (@Script.stop V .validator (.error cause)) (.validating i (.setting i .idle))⟩) rfl
  rw [Stack.updated, World.reporter?_of_property? hp] at htold
  obtain ⟨path, htakes, hreports⟩ := takes_fail hp hpassive (cause.during .validation)
  have hsilent : path.filterMap told? = [] := by
    rw [List.filterMap_eq_nil_iff]
    intro d hd
    obtain ⟨script, hfocus⟩ := hreports d hd
    simp [told?, failing?, hfocus]
  have hend := takes_reply (i := i)
    (s := { s with log := s.log ++ p.tells (cause.during .validation) }) hnamed
    (.error (cause.during .validation))
  refine ⟨_, (Takes.of_step hfail).trans (htakes.trans hend), ?_, ?_⟩
  · intro d hd
    simp only [List.singleton_append, List.mem_cons, List.mem_append, List.not_mem_nil,
      or_false] at hd
    rcases hd with (rfl | hd) | rfl
    · trivial
    · obtain ⟨script, hfocus⟩ := hreports d hd
      rw [hfocus]
      simp [Focus.RunsOnly]
    · simp [Focus.RunsOnly]
  · rw [List.filterMap_append, List.filterMap_append, hsilent]
    simp only [List.filterMap_cons, List.filterMap_nil, htold]
    cases p.report with
    | none => rfl
    | some report => rfl

/-- If the property has the value that its validator answers with, or one that equals it, the call
changes nothing. -/
theorem Repeated.of_value {u : V} {r : Reply V}
    (hname : s.world.find? name Handle.property? = some i)
    (hp : s.world.property? i = some { p with value := u }) (hfree : p.source = none)
    (hpassive : p.IsPassive)
    (hnamed : ∀ j, s.world.alive j = true → s.world.names.holds j = true)
    (haccepted : ∀ events w, (p.validate v).outcome? = some (events, .ok w) → (u == w) = true)
    (hrejected : ∀ events cause, (p.validate v).outcome? = some (events, .error cause) →
      r = .failed (cause.during .validation)) :
    Repeated s name i p v r where
  answered := hpassive.validate v
  accepted := by
    intro events w houtcome
    obtain ⟨path, htakes, honly, _⟩ := takes_answer hname hp hfree houtcome
    obtain ⟨last, hlast, honly'⟩ := takes_accepted (s := { s with log := s.log ++ events }) hp
      (haccepted events w houtcome) hnamed
    refine ⟨u, last ++ path, World.value?_of_property? hp, haccepted events w houtcome,
      htakes.trans hlast, ?_⟩
    intro d hd
    rcases List.mem_append.1 hd with hd | hd
    · exact honly' d hd
    · exact honly d hd
  rejected := by
    intro events cause houtcome
    obtain ⟨path, htakes, honly, hsilent⟩ := takes_answer hname hp hfree houtcome
    obtain ⟨last, hlast, honly', htold⟩ := takes_rejected (s := { s with log := s.log ++ events })
      hp ⟨hpassive.validate, hpassive.report⟩ cause hnamed
    refine ⟨hrejected events cause houtcome, last ++ path, htakes.trans hlast, ?_, ?_⟩
    · intro d hd
      rcases List.mem_append.1 hd with hd | hd
      · exact honly' d hd
      · exact (honly d hd).mono (List.cons_subset_cons _ (List.nil_subset _))
    · rw [List.filterMap_append, hsilent, List.append_nil, htold]

end

/-- In any state that a quiet run comes to with nothing in progress, let a free property be set to a
value that its validator rejects, or accepts as one that equals itself. The call ends, and whatever
it returns, the same call once more changes nothing. -/
theorem Run.set_again {past : List (Config V)} {c : Config V} (hrun : Run Op.IsQuiet past c)
    (hreply : c.reply?.isSome = true) {name : String} {i : Id} {p : Property V}
    (hname : c.state.world.find? name Handle.property? = some i)
    (hp : c.state.world.property? i = some p) (hfree : p.source = none) {v : V}
    (hself : ∀ events w, (p.validate v).outcome? = some (events, .ok w) → (w == w) = true) :
    ∃ s r, c.state.Performs (.set name v) s r ∧ Repeated s name i p v r := by
  have hbound : c.state.world.isBound i = false := by
    simp [World.isBound, hp, hfree]
  have hroot : c.state.world.relation? i = none := by
    rw [World.relation?_of_property? hp, hfree]
    rfl
  have halive := World.alive_of_shape? (World.shape?_eq_property_iff.2 ⟨p, hp⟩)
  have hacc := hrun.sound.world.linked.acc_of_free halive hroot
  cases hwalk : c.state.updateBy (State.spread _ i hacc) i v with
  | mk s r =>
    obtain ⟨hfirst, past', hlast⟩ := hrun.performs_set hreply hname hbound rfl hacc hwalk
    obtain ⟨u, hu, hnames⟩ := State.property?_updateBy hacc hp hwalk
    have hname' : s.world.find? name Handle.property? = some i := by
      rw [World.find?, hnames]
      exact hname
    refine ⟨s, _, hfirst, .of_value hname' hu hfree (hrun.quiet.world.property hp) hlast.named
      ?_ ?_⟩
    · intro events w houtcome
      obtain ⟨u', hu', heq⟩ :=
        State.value?_updateBy hacc hp houtcome (hself events w houtcome) hwalk
      cases (World.value?_of_property? hu).symm.trans hu'
      exact heq
    · intro events cause houtcome
      have hfailed := State.updateBy_rejected (State.spread _ i hacc) hp houtcome
      rw [hwalk] at hfailed
      rw [show r = .error (cause.during .validation) from hfailed]
      rfl

/-- A follower that rejects every value makes the first call fail, before a channel is reached. -/
theorem set_again_failed : ∃ (past : List (Config Nat)) (c : Config Nat) (p : Property Nat),
    Run Op.IsQuiet past c ∧ c.state.world.registrations 0 = [.bound 1, .listener 0] ∧
      ∃ s r, c.state.Performs (.set "p" 5) s r ∧ Repeated s "p" 0 p 5 r := by
  have hp : Run Op.IsQuiet _
      (start {} (.act (.property "p" 0 (fun v => .stop (.ok v)) none))) :=
    .start ⟨fun _ => rfl, fun _ hr => by cases hr⟩
  have hfollower : Run Op.IsQuiet _ (start _ (.act (.property "q" 0
      (fun _ => .stop (.error (.text "rejected"))) none))) :=
    (hp.step rfl).perform rfl ⟨fun _ => rfl, fun _ hr => by cases hr⟩
  have hbind : Run Op.IsQuiet _ (start _ (.act (.bind "q" "p"))) :=
    (hfollower.step rfl).perform rfl trivial
  have hchannel : Run Op.IsQuiet _ (start _ (.act (.channel "l" "r"))) :=
    (hbind.step rfl).perform rfl trivial
  have hadd : Run Op.IsQuiet _ (start _ (.act (.add "p" "l"))) :=
    (hchannel.step rfl).perform rfl trivial
  have hlast := hadd.step rfl
  exact ⟨_, _, _, hlast, rfl, hlast.set_again rfl rfl rfl rfl fun _ w _ => beq_self_eq_true w⟩

end Config

end Observable
