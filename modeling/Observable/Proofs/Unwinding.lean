import Observable.Proofs.Updates

/-!
# Failures on their way

When a validator or a listener fails, its failure goes down the stack until it comes to the frames
of the operation that is innermost in progress, and that operation returns it (`Config.Unwinds`).
Rounds, bound properties and bindings on the way pass it on as it is. The only thing that can happen
meanwhile is that a reporter of a property on the way runs, and whatever it does, the failure goes
on once it has ended (`Config.Run.unwound`).

What reporters are told on behalf of one operation is read off the history at the depth of its
frames (`Config.reportsFor`).
-/

namespace Observable

variable {V : Type}

namespace Stack

/-- The frames below the operation that is innermost in progress. -/
def caller : {a : Awaits} → Stack V a → Stack V .reply
  | _, .idle => .idle
  | _, .script next below => .script next below
  | _, .setting _ below => below
  | _, .following _ below => below.caller
  | _, .validating _ below => below.caller
  | _, .reporting _ _ below => below.caller
  | _, .converting _ below => below.caller
  | _, .wrapping _ _ _ below => below
  | _, .listening below => below.caller
  | _, .round _ _ _ _ below => below.caller
  | _, .notifying _ _ below => below
  | _, .updating _ _ below => below.caller
  | _, .recomputing _ below => below.caller

/-- The properties that are being updated for the operation that is innermost in progress, innermost
first. -/
def updates : {a : Awaits} → Stack V a → List Id
  | _, .idle => []
  | _, .script _ _ => []
  | _, .setting i _ => [i]
  | _, .following i below => i :: below.updates
  | _, .validating _ below => below.updates
  | _, .reporting _ _ below => below.updates
  | _, .converting _ below => below.updates
  | _, .wrapping _ _ _ _ => []
  | _, .listening below => below.updates
  | _, .round _ _ _ _ below => below.updates
  | _, .notifying _ _ _ => []
  | _, .updating _ _ below => below.updates
  | _, .recomputing _ below => below.updates

/-- The innermost frame belongs to an operation that sets a property or notifies a set, with the
frames of `k` below it. -/
inductive Enters (k : Stack V .reply) : (a : Awaits) × Stack V a → Prop
  | setting (i : Id) : Enters k ⟨_, .setting i k⟩
  | notifying (i j : Id) : Enters k ⟨_, .notifying i j k⟩

@[simp] theorem caller_reply (k : Stack V .reply) : k.caller = k := by
  cases k <;> rfl

theorem updates_update (k : Stack V .update) : ∃ rest, k.updates = k.updated :: rest := by
  cases k <;> exact ⟨_, rfl⟩

/-- No operation in progress is further up than the innermost one. -/
theorem mem_tails_caller {a : Awaits} {l : Stack V a} {k : Stack V .reply}
    (hk : ⟨_, k⟩ ∈ l.tails) : ⟨_, k⟩ ∈ l.caller.tails := by
  induction l with
  | idle => exact hk
  | script => exact hk
  | setting | wrapping | notifying => exact (List.mem_cons.1 hk).resolve_left fun h => by cases h
  | _ =>
    rename_i ih
    exact ih ((List.mem_cons.1 hk).resolve_left fun h => by cases h)

theorem caller_mem_tails {a : Awaits} (l : Stack V a) : ⟨_, l.caller⟩ ∈ l.tails := by
  induction l with
  | idle | script => exact mem_tails_self _
  | setting | wrapping | notifying => exact List.mem_cons_of_mem _ (mem_tails_self _)
  | _ =>
    rename_i ih
    exact List.mem_cons_of_mem _ ih

/-- What performs an operation inside a callback is above the operation that called it. -/
theorem depth_lt_caller {a : Awaits} {l : Stack V a} {ρ : Role} {x : Stack V (.answer ρ)}
    (hx : ⟨_, x⟩ ∈ l.tails) : (⟨_, x⟩ : (b : Awaits) × Stack V b) = ⟨_, l⟩ ∨
      x.depth < l.caller.depth := by
  induction l with
  | idle => cases List.mem_singleton.1 hx
  | script next k ih =>
    right
    have hk := (List.mem_cons.1 hx).resolve_left fun h => by cases h
    exact Nat.lt_succ_of_le (depth_le hk)
  | setting i k ih | wrapping i name convert k ih | notifying i j k ih =>
    rcases List.mem_cons.1 hx with heq | hx
    · exact .inl heq
    · right
      rcases ih hx with heq | hlt
      · cases heq
      · rw [caller_reply] at hlt
        exact hlt
  | _ =>
    rename_i ih
    rcases List.mem_cons.1 hx with heq | hx
    · exact .inl heq
    · right
      exact (ih hx).resolve_left fun h => by cases h

/-- A failure comes from inside an operation that sets a property or notifies a set. -/
theorem exists_enters {a : Awaits} (l : Stack V a) (ha : a = .update ∨ a = .call ∨ a = .round) :
    ∃ y ∈ l.tails, Enters l.caller y := by
  have hbelow : ∀ {b : Awaits} {k : Stack V b} {x : (a : Awaits) × Stack V a},
      (∃ y ∈ k.tails, Enters k.caller y) → ∃ y ∈ x :: k.tails, Enters k.caller y := by
    rintro b k x ⟨y, hy, henters⟩
    exact ⟨y, List.mem_cons_of_mem _ hy, henters⟩
  induction l with
  | setting i k => exact ⟨_, List.mem_cons_self, .setting i⟩
  | notifying i j k => exact ⟨_, List.mem_cons_self, .notifying i j⟩
  | following i k ih => exact hbelow (ih (.inr (.inl rfl)))
  | round rest observed old new k ih => exact hbelow (ih (.inr (.inr rfl)))
  | updating i old k ih => exact hbelow (ih (.inl rfl))
  | recomputing i k ih => exact hbelow (ih (.inr (.inl rfl)))
  | _ => simp at ha

/-- What is being updated is held. -/
theorem mem_holds_of_mem_updates {a : Awaits} {l : Stack V a} {i : Id} (hi : i ∈ l.updates) :
    i ∈ l.holds := by
  induction l with
  | idle | script | wrapping | notifying => cases hi
  | setting j k =>
    rw [List.mem_singleton.1 hi]
    exact List.mem_cons_self
  | following j k ih =>
    rcases List.mem_cons.1 hi with rfl | hi
    · exact List.mem_cons_self
    · exact List.mem_cons_of_mem _ (ih hi)
  | converting j k ih | recomputing j k ih => exact List.mem_cons_of_mem _ (ih hi)
  | _ =>
    rename_i ih
    exact ih hi

end Stack

namespace Config

/-- The failure of the callback that ends now. -/
def raised? (c : Config V) : Option Error :=
  match c.focus with
  | @Focus.run _ .validator (.stop (.error cause)) (.validating _ _) =>
    some (cause.during .validation)
  | @Focus.run _ .listener (.stop (.error cause)) (.listening _) => some (cause.during .listener)
  | _ => none

/-- The failure `e` is on its way to the operation over the frames of `k`, and the updates of `left`
have still to fail with it. -/
inductive Unwinds (c : Config V) (e : Error) (k : Stack V .reply) : List Id → Prop
  | raised (hraised : c.raised? = some e) (hk : c.focus.frames.2.caller = k) :
    Unwinds c e k c.focus.frames.2.updates
  | called {l : Stack V .call} (hfocus : c.focus = .called (.error e) l) (hk : l.caller = k) :
    Unwinds c e k l.updates
  | rounded {l : Stack V .round} (hfocus : c.focus = .rounded (.error e) l) (hk : l.caller = k) :
    Unwinds c e k l.updates
  | reporting {i : Id} {l : Stack V .update} (hwaits : c.Waits (.reporting i e l))
      (hk : l.caller = k) : Unwinds c e k l.updates.tail
  | updated {l : Stack V .update} (hfocus : c.focus = .updated (.error e) l) (hk : l.caller = k) :
    Unwinds c e k l.updates.tail

/-- What a reporter is told next on behalf of the operation over the frames of `k`, and by which
property. -/
def reportFor? (k : Stack V .reply) (c : Config V) : Option (Id × Error) :=
  (c.told?.filter fun x => x.2.caller.depth = k.depth).map fun x => (x.2.updated, x.1)

/-- What reporters were told on behalf of the operation over the frames of `k`, in order, in a
history with its latest moment first. -/
def reportsFor (k : Stack V .reply) (history : List (Config V)) : List (Id × Error) :=
  history.reverse.filterMap (reportFor? k)

theorem reportsFor_cons (k : Stack V .reply) (c : Config V) (history : List (Config V)) :
    reportsFor k (c :: history) = reportsFor k history ++ (c.reportFor? k).toList := by
  unfold reportsFor
  rw [List.reverse_cons, List.filterMap_append]
  cases h : c.reportFor? k <;> simp [h]

theorem raised?_cases {c : Config V} {e : Error} (hraised : c.raised? = some e) :
    (∃ i cause u, e = cause.during .validation ∧
      c.focus = .run (@Script.stop V .validator (.error cause)) (.validating i u)) ∨
    ∃ cause l, e = cause.during .listener ∧
      c.focus = .run (@Script.stop V .listener (.error cause)) (.listening l) := by
  unfold raised? at hraised
  split at hraised
  · next cause i u hfocus =>
    cases hraised
    exact .inl ⟨i, cause, u, rfl, hfocus⟩
  · next cause l hfocus =>
    cases hraised
    exact .inr ⟨cause, l, rfl, hfocus⟩
  · cases hraised

/-! ## One step -/

/-- When a reporter is told, whatever reporters run are below its update. -/
theorem mem_tails_of_told? {c : Config V} {e : Error} {k : Stack V .update}
    (htold : c.told? = some (e, k)) {i : Id} {e' : Error} {l : Stack V .update}
    (hwaits : c.Waits (.reporting i e' l)) : ⟨_, .reporting i e' l⟩ ∈ k.tails := by
  unfold Waits at hwaits
  cases acts_of_told? htold with
  | answer hfocus | round hfocus =>
    rw [hfocus] at hwaits
    exact (List.mem_cons.1 hwaits).resolve_left fun h => by cases h

/-- While a reporter runs, what is told is told on behalf of other operations, which are above it. -/
theorem reportFor?_of_reporting {c : Config V} {i : Id} {e : Error} {l : Stack V .update}
    (hwaits : c.Waits (.reporting i e l)) : c.reportFor? l.caller = none := by
  unfold reportFor?
  rw [Option.map_eq_none_iff, Option.filter_eq_none_iff]
  intro x hx
  rw [decide_eq_true_eq]
  have hlt := (Stack.depth_lt_caller (mem_tails_of_told? hx hwaits)).resolve_left fun h => by cases h
  have hle := Stack.depth_le l.caller_mem_tails
  have hreporting : (Stack.reporting i e l).depth = l.depth + 1 := rfl
  intro heq
  rw [heq, hreporting] at hlt
  exact absurd hle (Nat.not_le_of_lt (Nat.lt_of_succ_lt hlt))

theorem reportFor?_of_failing? {c : Config V} {e : Error} {u : Stack V .update}
    (hfailing : c.failing? = some (e, u)) :
    c.reportFor? u.caller =
      if (c.state.world.reporter? u.updated).isSome then some (u.updated, e) else none := by
  rw [reportFor?, told?_of_failing? hfailing]
  split <;> simp

theorem reportFor?_of_not_failing {c : Config V} (hfailing : c.failing? = none)
    (k : Stack V .reply) : c.reportFor? k = none := by
  simp [reportFor?, told?, hfailing]

variable [BEq V]

/-- What an update has failed with goes on to its reporter, or to what waits for the update. -/
theorem Sound.unwinds_of_failing? {c d : Config V} (hc : c.Sound) (hstep : c.step = some d)
    {e : Error} {u : Stack V .update} (hfailing : c.failing? = some (e, u)) :
    d.Unwinds e u.caller u.updates.tail := by
  rcases hc.failed_of_step hstep hfailing with ⟨_, hfocus⟩ | ⟨_, hwaits⟩
  · exact .updated hfocus rfl
  · exact .reporting hwaits rfl

/-- A failure goes on to what comes next on its way: it fails an update, it is passed on as it is,
or the operation returns it. -/
theorem Unwinds.step {c d : Config V} {e : Error} {k : Stack V .reply} {left : List Id}
    (hc : c.Unwinds e k left) (hsound : c.Sound) (hstep : c.step = some d) :
    (∃ u, c.failing? = some (e, u) ∧ u.caller = k ∧ left = u.updates ∧ d.Unwinds e k left.tail) ∨
      (c.reportFor? k = none ∧ d.Unwinds e k left) ∨
      (c.reportFor? k = none ∧ left = [] ∧ d.focus = .reply (.failed e) k) := by
  cases hc with
  | raised hraised hk =>
    rcases raised?_cases hraised with ⟨i, cause, u, rfl, hfocus⟩ | ⟨cause, l, rfl, hfocus⟩
    · left
      have hfailing : c.failing? = some (cause.during .validation, u) := by
        simp [failing?, hfocus]
      rw [hfocus] at hk ⊢
      subst hk
      exact ⟨u, hfailing, rfl, rfl, hsound.unwinds_of_failing? hstep hfailing⟩
    · right; left
      refine ⟨reportFor?_of_not_failing (by simp [failing?, hfocus]) k, ?_⟩
      obtain ⟨s, f⟩ := c
      cases hfocus
      cases hstep
      exact .called rfl hk
  | @called l hfocus hk =>
    right; left
    refine ⟨reportFor?_of_not_failing (by simp [failing?, hfocus]) k, ?_⟩
    obtain ⟨s, f⟩ := c
    cases hfocus
    cases l with
    | round rest observed old new l =>
      cases hstep
      exact .rounded rfl hk
  | @rounded l hfocus hk =>
    cases l with
    | updating i old u =>
      left
      have hfailing : c.failing? = some (e, u) := by simp [failing?, hfocus]
      subst hk
      exact ⟨u, hfailing, rfl, rfl, hsound.unwinds_of_failing? hstep hfailing⟩
    | recomputing i l =>
      right; left
      refine ⟨reportFor?_of_not_failing (by simp [failing?, hfocus]) k, ?_⟩
      obtain ⟨s, f⟩ := c
      cases hfocus
      cases hstep
      exact .called rfl hk
    | notifying i j l =>
      right; right
      refine ⟨reportFor?_of_not_failing (by simp [failing?, hfocus]) k, rfl, ?_⟩
      obtain ⟨s, f⟩ := c
      cases hfocus
      cases hstep
      cases hk
      rfl
  | @reporting i u hwaits hk =>
    right; left
    subst hk
    refine ⟨reportFor?_of_reporting hwaits, ?_⟩
    rcases (Transition.of_step hstep).waits_answer hwaits with ⟨a, hfocus⟩ | ⟨_, hstill⟩
    · obtain ⟨s, f⟩ := c
      cases hfocus
      cases hstep
      exact .updated rfl rfl
    · exact .reporting hstill rfl
  | @updated u hfocus hk =>
    have hnone := reportFor?_of_not_failing (c := c) (by simp [failing?, hfocus]) k
    obtain ⟨s, f⟩ := c
    cases hfocus
    cases hstep
    cases u with
    | setting i l =>
      cases hk
      exact .inr (.inr ⟨hnone, rfl, rfl⟩)
    | following i l => exact .inr (.inl ⟨hnone, .called rfl hk⟩)

/-! ## Runs -/

omit [BEq V] in
theorem Unwinds.mem_holds {c : Config V} {e : Error} {k : Stack V .reply} {left : List Id}
    (hc : c.Unwinds e k left) {i : Id} (hi : i ∈ left) : i ∈ c.focus.holds := by
  cases hc with
  | raised _ _ => exact Stack.mem_holds_of_mem_updates hi
  | called hfocus _ | rounded hfocus _ =>
    rw [hfocus]
    exact Stack.mem_holds_of_mem_updates hi
  | updated hfocus _ =>
    rw [hfocus]
    exact Stack.mem_holds_of_mem_updates (List.mem_of_mem_tail hi)
  | reporting hwaits _ =>
    have hheld := Stack.mem_holds_of_mem_updates (List.mem_of_mem_tail hi)
    exact Stack.mem_holds_of_mem_tails hwaits hheld

omit [BEq V] in
/-- The frames below an operation wait while a failure is on its way to it, and more is above
them. -/
theorem Unwinds.depth_lt {c : Config V} {e : Error} {k : Stack V .reply} {left : List Id}
    (hc : c.Unwinds e k left) : k.depth < c.focus.frames.2.depth := by
  have habove : ∀ {a : Awaits} {l : Stack V a}, a ≠ .reply → l.caller = k →
      k.depth < l.depth := by
    intro a l ha hk
    have hmem := l.caller_mem_tails
    rw [hk] at hmem
    rcases Nat.lt_or_eq_of_le (Stack.depth_le hmem) with hlt | heq
    · exact hlt
    · cases Stack.eq_of_depth_le hmem (Nat.le_of_eq heq.symm)
      exact absurd rfl ha
  cases hc with
  | raised hraised hk =>
    rcases raised?_cases hraised with ⟨i, cause, u, _, hfocus⟩ | ⟨cause, l, _, hfocus⟩
    · rw [hfocus] at hk ⊢
      exact habove (fun h => by cases h) hk
    · rw [hfocus] at hk ⊢
      exact habove (fun h => by cases h) hk
  | called hfocus hk | rounded hfocus hk | updated hfocus hk =>
    rw [hfocus]
    exact habove (fun h => by cases h) hk
  | reporting hwaits hk =>
    have hlt := habove (fun h => by cases h) hk
    exact Nat.lt_of_lt_of_le (Nat.lt_succ_of_lt hlt) (Stack.depth_le hwaits)

omit [BEq V] in
theorem Unwinds.focus_ne_reply {c : Config V} {e : Error} {k : Stack V .reply} {left : List Id}
    (hc : c.Unwinds e k left) (r : Reply V) : c.focus ≠ .reply r k := by
  intro hfocus
  have hlt := hc.depth_lt
  rw [hfocus] at hlt
  exact Nat.lt_irrefl _ hlt

omit [BEq V] in
/-- Nothing is performed from outside while a failure is on its way. -/
theorem Unwinds.not_isSome_reply? {c : Config V} {e : Error} {k : Stack V .reply} {left : List Id}
    (hc : c.Unwinds e k left) : ¬ c.reply?.isSome = true := by
  intro hreply
  obtain ⟨r, hfocus⟩ := isSome_reply?_iff.1 hreply
  have hlt := hc.depth_lt
  rw [hfocus] at hlt
  cases k <;> exact absurd hlt (Nat.not_lt_of_le (Nat.succ_le_succ (Nat.zero_le _)))

/-- A step takes a failure past the updates of `gone`, whose reporters are told. -/
theorem Unwinds.next {c d : Config V} {e : Error} {k : Stack V .reply} {left : List Id}
    (hc : c.Unwinds e k left) (hsound : c.Sound) (hstep : c.step = some d) :
    ∃ gone left', left = gone ++ left' ∧
      (c.reportFor? k).toList =
        (gone.filter fun i => (c.state.world.reporter? i).isSome).map (·, e) ∧
      (d.Unwinds e k left' ∨ (left' = [] ∧ d.focus = .reply (.failed e) k)) := by
  rcases hc.step hsound hstep with ⟨u, hfailing, rfl, rfl, hd⟩ | ⟨hnone, hd⟩ | ⟨hnone, rfl, hd⟩
  · obtain ⟨rest, hrest⟩ := u.updates_update
    rw [hrest] at hd ⊢
    refine ⟨[u.updated], rest, rfl, ?_, .inl hd⟩
    rw [reportFor?_of_failing? hfailing]
    cases hreporter : c.state.world.reporter? u.updated <;> simp [hreporter]
  · exact ⟨[], left, rfl, by rw [hnone]; rfl, .inl hd⟩
  · exact ⟨[], [], rfl, by rw [hnone]; rfl, .inr ⟨rfl, hd⟩⟩

/-- A failure that is on its way fails one update after the other, each with its reporter told, and
then the operation returns it. -/
theorem Run.unwound {allowed : Op V → Prop} {later before : List (Config V)} {c₀ c : Config V}
    (hrun : Run allowed (later ++ c₀ :: before) c) {e : Error} {k : Stack V .reply}
    {all : List Id} (hbegin : c₀.Unwinds e k all) (hopen : ∀ d ∈ later, ∀ r, d.focus ≠ .reply r k) :
    ∃ gone left, all = gone ++ left ∧
      reportsFor k (later ++ [c₀]) =
        (gone.filter fun i => (c₀.state.world.reporter? i).isSome).map (·, e) ∧
      (c.Unwinds e k left ∨ (left = [] ∧ c.focus = .reply (.failed e) k)) := by
  induction later generalizing c with
  | nil =>
    cases hrun with
    | step hrun hstep => exact hbegin.next hrun.sound hstep
    | perform _ hreply _ => exact absurd hreply hbegin.not_isSome_reply?
  | cons d later ih =>
    have hlater : ∀ d ∈ later, ∀ r, d.focus ≠ .reply r k :=
      fun d hd => hopen d (List.mem_cons_of_mem _ hd)
    have hd : ∀ {before' left}, Run allowed before' d → (d.Unwinds e k left ∨
        (left = [] ∧ d.focus = .reply (.failed e) k)) → d.Unwinds e k left :=
      fun _ h => h.resolve_right fun h => hopen d List.mem_cons_self _ h.2
    cases hrun with
    | step hrun hstep =>
      obtain ⟨gone, left, rfl, hreports, hstate⟩ := ih hrun hlater
      have hhere := hd hrun hstate
      obtain ⟨gone', left', rfl, hreport, hnext⟩ := hhere.next hrun.sound hstep
      refine ⟨gone ++ gone', left', (List.append_assoc ..).symm, ?_, hnext⟩
      -- The properties on the way are alive, so they have the reporters that they had.
      have hkept : ∀ i ∈ gone', d.state.world.reporter? i = c₀.state.world.reporter? i := by
        intro i hi
        have halive := hrun.sound.alive_of_holds (hhere.mem_holds (List.mem_append_left _ hi))
        have hlt := World.lt_size_of_alive (hrun.of_append.sound.alive_of_holds
          (hbegin.mem_holds (List.mem_append_right _ (List.mem_append_left _ hi))))
        exact hrun.bind_body? Body.isFixed_reporter? hlt halive
      rw [List.cons_append, reportsFor_cons, hreports, hreport, List.filter_append,
        List.map_append]
      congr 2
      exact List.filter_congr fun i hi => by rw [hkept i hi]
    | perform hrun hreply _ =>
      obtain ⟨gone, left, _, _, hstate⟩ := ih hrun hlater
      exact absurd hreply (hd hrun hstate).not_isSome_reply?

/-! ## Where a failure comes from -/

/-- A reporter that runs after a step has run before, or it is told of a failed update. -/
theorem Transition.reporting {c d : Config V} (hmove : c.Transition d) {i : Id} {e : Error}
    {l : Stack V .update} (hwaits : d.Waits (.reporting i e l)) :
    c.Waits (.reporting i e l) ∨ c.failing? = some (e, l) := by
  -- Frames of other kinds are not in question.
  have hskip : ∀ {x : (a : Awaits) × Stack V a} {xs : List ((a : Awaits) × Stack V a)},
      (⟨_, .reporting i e l⟩ : (a : Awaits) × Stack V a) ∈ x :: xs → ⟨_, .reporting i e l⟩ ≠ x →
        ⟨_, .reporting i e l⟩ ∈ xs :=
    fun hmem hne => (List.mem_cons.1 hmem).resolve_left hne
  have hfail : ∀ {s : State V} {e' : Error} {k : Stack V .update},
      (s.fail e' k).Waits (.reporting i e l) →
        ⟨_, .reporting i e l⟩ ∈ k.tails ∨ (e' = e ∧ k = l) := by
    intro s e' k
    refine State.fail_cases (P := fun d => d.Waits (.reporting i e l) → _) .inl ?_
    intro p report _ _ hmem
    rcases List.mem_cons.1 hmem with heq | hmem
    · cases heq
      exact .inr ⟨rfl, rfl⟩
    · exact .inl hmem
  cases hmove with
  | act | setUnknown | setBound | notifyUnknown | wrapUnknown | emit | called => exact .inl hwaits
  | wrap | perform => exact .inl (hskip hwaits fun h => by cases h)
  | set | notify =>
    exact .inl (hskip (hskip hwaits fun h => by cases h) fun h => by cases h)
  | resume | gone | unchanged | reported | announced | setDone | followed | wrapped | convertedGone
  | recomputed | roundDone | listened | listenFailed | callFailed | notified =>
    exact .inl (List.mem_cons_of_mem _ hwaits)
  | write | converted | listen | convert =>
    exact .inl (List.mem_cons_of_mem _
      (hskip (hskip hwaits fun h => by cases h) fun h => by cases h))
  | callGone | send | boundGone | derivedGone =>
    exact .inl (List.mem_cons_of_mem _ (hskip hwaits fun h => by cases h))
  | deliver =>
    have hround := hskip (hskip hwaits fun h => by cases h) fun h => by cases h
    exact .inl (List.mem_cons_of_mem _ (hskip hround fun h => by cases h))
  | reject | announceFailed =>
    rcases hfail hwaits with hmem | ⟨rfl, rfl⟩
    · exact .inl (List.mem_cons_of_mem _ hmem)
    · exact .inr rfl

omit [BEq V] in
theorem Unwinds.of_failing? {c : Config V} {e : Error} {u : Stack V .update}
    (hfailing : c.failing? = some (e, u)) : c.Unwinds e u.caller u.updates := by
  rcases failing?_cases hfailing with ⟨i, old, hfocus⟩ | ⟨i, cause, rfl, hfocus⟩
  · exact .rounded hfocus rfl
  · have hraised : c.raised? = some (cause.during .validation) := by simp [raised?, hfocus]
    have hunwinds := Unwinds.raised (k := u.caller) hraised (by rw [hfocus]; rfl)
    rw [hfocus] at hunwinds
    exact hunwinds

/-- A failure that is on its way was so before, unless a callback fails with it now. -/
theorem Unwinds.prior {c d : Config V} {e : Error} {k : Stack V .reply} {left : List Id}
    (hd : d.Unwinds e k left) (hstep : c.step = some d) :
    (d.raised? = some e ∧ d.focus.frames.2.caller = k) ∨ ∃ left', c.Unwinds e k left' := by
  have hmove := Transition.of_step hstep
  cases hd with
  | raised hraised hk => exact .inl ⟨hraised, hk⟩
  | reporting hwaits hk =>
    right
    subst hk
    rcases hmove.reporting hwaits with hbefore | hfailing
    · exact ⟨_, .reporting hbefore rfl⟩
    · exact ⟨_, .of_failing? hfailing⟩
  | @called l hfocus hk =>
    right
    cases hmove with
    | listenFailed s cause k =>
      cases hfocus
      exact ⟨_, .raised rfl hk⟩
    | followed s r i k =>
      cases r with
      | ok old => cases hfocus
      | error e =>
        cases hfocus
        exact ⟨_, .updated rfl hk⟩
    | recomputed s r i k =>
      cases hfocus
      exact ⟨_, .rounded rfl hk⟩
    | reject | announceFailed =>
      exact absurd hfocus (State.fail_cases (P := fun d => d.focus ≠ .called (.error e) l)
        (fun h => by cases h) fun _ _ _ _ h => by cases h)
    | _ => cases hfocus
  | @rounded l hfocus hk =>
    right
    cases hmove with
    | callFailed =>
      cases hfocus
      exact ⟨_, .called rfl hk⟩
    | reject | announceFailed =>
      exact absurd hfocus (State.fail_cases (P := fun d => d.focus ≠ .rounded (.error e) l)
        (fun h => by cases h) fun _ _ _ _ h => by cases h)
    | _ => cases hfocus
  | @updated l hfocus hk =>
    right
    subst hk
    have hfail : ∀ {s : State V} {e' : Error} {u : Stack V .update},
        (s.fail e' u).focus = .updated (.error e) l → e' = e ∧ u = l := by
      intro s e' u
      refine State.fail_cases (P := fun d => d.focus = .updated (.error e) l → _)
        (fun h => ?_) fun _ _ _ _ h => by cases h
      cases h
      exact ⟨rfl, rfl⟩
    cases hmove with
    | reported s i e' a k =>
      cases hfocus
      exact ⟨_, .reporting (Stack.mem_tails_self _) rfl⟩
    | reject | announceFailed =>
      obtain ⟨rfl, rfl⟩ := hfail hfocus
      exact ⟨_, .of_failing? rfl⟩
    | _ => cases hfocus

/-- A failure that is on its way comes from a callback that failed with it, and has been on its way
since. -/
theorem Run.raised_of_unwinds {allowed : Op V → Prop} {past : List (Config V)} {c : Config V}
    (hrun : Run allowed past c) {e : Error} {k : Stack V .reply} {left : List Id}
    (hc : c.Unwinds e k left) :
    ∃ later c₀ before, c :: past = later ++ c₀ :: before ∧ c₀.raised? = some e ∧
      c₀.focus.frames.2.caller = k ∧ ∀ d ∈ later, ∃ left, d.Unwinds e k left := by
  induction hrun generalizing left with
  | start hop =>
    have hlt := hc.depth_lt
    exact absurd hlt (by cases k <;> exact Nat.not_lt_of_le (Nat.succ_le_succ (Nat.zero_le _)))
  | perform hrun hreply hop ih =>
    have hlt := hc.depth_lt
    exact absurd hlt (by cases k <;> exact Nat.not_lt_of_le (Nat.succ_le_succ (Nat.zero_le _)))
  | @step past c d hrun hstep ih =>
    rcases hc.prior hstep with ⟨hraised, hk⟩ | ⟨left', hbefore⟩
    · exact ⟨[], d, c :: past, rfl, hraised, hk, fun e he => by cases he⟩
    · obtain ⟨later, c₀, before, hpast, hraised, hk, hlater⟩ := ih hbefore
      refine ⟨d :: later, c₀, before, by rw [hpast]; rfl, hraised, hk, fun x hx => ?_⟩
      rcases List.mem_cons.1 hx with rfl | hx
      · exact ⟨left, hc⟩
      · exact hlater x hx

/-- A failure that is on its way to an operation in progress comes from a callback that failed since
the operation began. -/
theorem Run.raised_since {allowed : Op V → Prop} {later before : List (Config V)} {b c : Config V}
    (hrun : Run allowed (later ++ b :: before) c) {op : Op V} {k : Stack V .reply}
    (hfocus : b.focus = .operate op k) {e : Error} {left : List Id} (hc : c.Unwinds e k left) :
    ∃ after c₀ between, c :: later = after ++ c₀ :: between ∧ c₀.raised? = some e ∧
      c₀.focus.frames.2.caller = k := by
  obtain ⟨after, c₀, between, hpast, hraised, hk, hafter⟩ := hrun.raised_of_unwinds hc
  -- The failure is not on its way yet when the operation begins.
  have hbegin : ∀ left, ¬ b.Unwinds e k left := fun left h => by
    have hlt := h.depth_lt
    rw [hfocus] at hlt
    exact Nat.lt_irrefl _ hlt
  have hsplit : (c :: later) ++ b :: before = after ++ c₀ :: between := hpast
  rcases List.append_eq_append_iff.1 hsplit with ⟨more, hmore, hrest⟩ | ⟨more, hmore, hrest⟩
  · cases more with
    | nil =>
      obtain ⟨rfl, _⟩ := List.cons.inj hrest
      exact absurd (.raised hraised hk) (hbegin _)
    | cons x more =>
      obtain ⟨rfl, _⟩ := List.cons.inj hrest
      obtain ⟨left, hleft⟩ := hafter b (by rw [hmore]; simp)
      exact absurd hleft (hbegin left)
  · cases more with
    | nil =>
      obtain ⟨rfl, _⟩ := List.cons.inj hrest
      exact absurd (.raised hraised hk) (hbegin _)
    | cons x more =>
      obtain ⟨rfl, _⟩ := List.cons.inj hrest
      exact ⟨after, c₀, more, hmore, hraised, hk⟩

/-! ## Coming to the operation -/

/-- The operation over the frames of `k` returns `e` after some steps, as its first reply, or a
reporter that is told of `e` on its behalf goes on for ever. -/
def FailsWith (c : Config V) (e : Error) (k : Stack V .reply) : Prop :=
  (∃ n, (c.iterate n).focus = .reply (.failed e) k ∧
      ∀ m < n, ∀ r, (c.iterate m).focus ≠ .reply r k) ∨
    ∃ n u, u.caller = k ∧ (c.iterate n).Stuck e u

theorem FailsWith.of_iterate {c : Config V} {e : Error} {k : Stack V .reply} {n : Nat}
    (hfails : (c.iterate n).FailsWith e k) (hopen : ∀ m < n, ∀ r, (c.iterate m).focus ≠ .reply r k) :
    c.FailsWith e k := by
  rcases hfails with ⟨m, hreply, hearlier⟩ | ⟨m, u, hk, hstuck⟩
  · left
    refine ⟨n + m, by rw [iterate_add]; exact hreply, fun j hj r => ?_⟩
    rcases Nat.lt_or_ge j n with hlt | hge
    · exact hopen j hlt r
    · obtain ⟨i, rfl⟩ := Nat.exists_eq_add_of_le hge
      rw [iterate_add]
      exact hearlier i (Nat.lt_of_add_lt_add_left hj) r
  · right
    exact ⟨n + m, u, hk, by rw [iterate_add]; exact hstuck⟩

theorem FailsWith.of_step {c d : Config V} {e : Error} {k : Stack V .reply} (hstep : c.step = some d)
    (hopen : ∀ r, c.focus ≠ .reply r k) (hfails : d.FailsWith e k) : c.FailsWith e k := by
  have hnext : c.iterate 1 = d := by simp [iterate, hstep]
  rw [← hnext] at hfails
  refine hfails.of_iterate fun m hm r => ?_
  rw [Nat.lt_one_iff.1 hm]
  exact hopen r

omit [BEq V] in
/-- A call, a round or an update has failed, and its failure goes to the frames of `l`. -/
inductive Passes (c : Config V) (e : Error) : {a : Awaits} → Stack V a → Prop
  | called {l : Stack V .call} (hfocus : c.focus = .called (.error e) l) : Passes c e l
  | rounded {l : Stack V .round} (hfocus : c.focus = .rounded (.error e) l) : Passes c e l
  | updated {l : Stack V .update} (hfocus : c.focus = .updated (.error e) l) : Passes c e l

omit [BEq V] in
theorem Passes.unwinds {c : Config V} {e : Error} {a : Awaits} {l : Stack V a}
    (hc : c.Passes e l) : ∃ left, c.Unwinds e l.caller left := by
  cases hc with
  | called hfocus => exact ⟨_, .called hfocus rfl⟩
  | rounded hfocus => exact ⟨_, .rounded hfocus rfl⟩
  | updated hfocus => exact ⟨_, .updated hfocus rfl⟩

omit [BEq V] in
theorem Passes.focus_ne_reply {c : Config V} {e : Error} {a : Awaits} {l : Stack V a}
    (hc : c.Passes e l) (r : Reply V) : c.focus ≠ .reply r l.caller := by
  obtain ⟨left, hunwinds⟩ := hc.unwinds
  exact hunwinds.focus_ne_reply r

theorem failsWith_of_reply {c : Config V} {e : Error} {k : Stack V .reply}
    (hfocus : c.focus = .reply (.failed e) k) : c.FailsWith e k :=
  .inl ⟨0, hfocus, fun _ hm => absurd hm (Nat.not_lt_zero _)⟩

/-- While a reporter runs on behalf of an operation, the operation has no reply. -/
theorem failsWith_of_reporting {c : Config V} {i : Id} {e : Error} {u : Stack V .update}
    (hwaits : c.Waits (.reporting i e u)) (hi : i = u.updated)
    (hreported : ∀ d : Config V, d.Passes e u → d.FailsWith e u.caller) : c.FailsWith e u.caller := by
  rcases hwaits.answers_or with ⟨n, a, hfocus, hearlier⟩ | hforever
  · have hopen : ∀ m ≤ n, ∀ r, (c.iterate m).focus ≠ .reply r u.caller :=
      fun m hm => (Unwinds.reporting (hearlier m hm) rfl).focus_ne_reply
    refine FailsWith.of_iterate (n := n) ?_ fun m hm => hopen m (Nat.le_of_lt hm)
    have hstep : (c.iterate n).step = some ⟨(c.iterate n).state, .updated (.error e) u⟩ := by
      rw [step, hfocus]
      rfl
    exact .of_step hstep (hopen n (Nat.le_refl n)) (hreported _ (.updated rfl))
  · subst hi
    exact .inr ⟨0, u, rfl, hforever⟩

/-- Whatever frames a failure goes to, the operation below them returns it. -/
theorem Passes.failsWith {a : Awaits} {l : Stack V a} {e : Error} {c : Config V}
    (hc : c.Passes e l) : c.FailsWith e l.caller := by
  have hopen := hc.focus_ne_reply
  obtain ⟨s, f⟩ := c
  induction l generalizing s f with
  | setting i k =>
    cases hc with
    | updated hfocus =>
      cases hfocus
      exact .of_step rfl hopen (failsWith_of_reply rfl)
  | following i k ih =>
    cases hc with
    | updated hfocus =>
      cases hfocus
      have hnext : Passes ⟨s.release k i, .called (.error e) k⟩ e k := .called rfl
      exact .of_step rfl hopen (ih _ _ hnext hnext.focus_ne_reply)
  | round rest observed old new k ih =>
    cases hc with
    | called hfocus =>
      cases hfocus
      have hnext : Passes ⟨s, .rounded (.error e) k⟩ e k := .rounded rfl
      exact .of_step rfl hopen (ih _ _ hnext hnext.focus_ne_reply)
  | notifying i j k =>
    cases hc with
    | rounded hfocus =>
      cases hfocus
      exact .of_step rfl hopen (failsWith_of_reply rfl)
  | updating i old u ih =>
    cases hc with
    | rounded hfocus =>
      cases hfocus
      have hended : ∀ {d : Config V}, d.Passes e u → d.FailsWith e u.caller :=
        fun hd => ih _ _ hd hd.focus_ne_reply
      refine .of_step rfl hopen (State.fail_cases (s := s) (P := fun d => d.FailsWith e u.caller)
        (hended (.updated rfl)) fun p report _ _ => ?_)
      exact failsWith_of_reporting (Stack.mem_tails_self _) rfl fun _ => hended
  | recomputing i k ih =>
    cases hc with
    | rounded hfocus =>
      cases hfocus
      have hnext : Passes ⟨s.release k i, .called (.error e) k⟩ e k := .called rfl
      exact .of_step rfl hopen (ih _ _ hnext hnext.focus_ne_reply)
  | _ => cases hc

/-- A failure comes to the operation that is innermost in progress. -/
theorem failsWith_of_raised? {c : Config V} {e : Error} (hraised : c.raised? = some e) :
    c.FailsWith e c.focus.frames.2.caller := by
  have hopen := (Unwinds.raised hraised rfl).focus_ne_reply
  obtain ⟨s, f⟩ := c
  rcases raised?_cases hraised with ⟨i, cause, u, rfl, hfocus⟩ | ⟨cause, l, rfl, hfocus⟩
  · cases hfocus
    have hended : ∀ {d : Config V}, d.Passes (cause.during .validation) u →
        d.FailsWith (cause.during .validation) u.caller := fun hd => hd.failsWith
    refine .of_step rfl hopen (State.fail_cases (s := s)
      (P := fun d => d.FailsWith (cause.during .validation) u.caller) (hended (.updated rfl)) ?_)
    intro p report _ _
    exact failsWith_of_reporting (Stack.mem_tails_self _) rfl fun _ => hended
  · cases hfocus
    have hnext : Passes ⟨s, .called (.error (cause.during .listener)) l⟩
        (cause.during .listener) l := .called rfl
    exact .of_step rfl hopen hnext.failsWith

end Config

end Observable
