import Observable.Proofs.Waiting

/-!
# Rounds

A round calls what was registered when it began. Its listeners may do whatever they like in the
meantime: add to the list, remove from it, notify it again, set the property that is being
announced, or end the life of a target that the round has still to call. None of this changes which
calls the round makes (`Config.Run.round_calls`).

A round is identified by its frames. While it goes on they are the only ones at their depth of the
stack, so its calls and their outcomes can be read off the history at that depth
(`Config.notices`, `Config.outcomes`), without those of the rounds inside it or around it. How far a
round has come is `Config.Progress`; a step makes it go on, or leaves it where it is because
something happens inside the call that it has made (`Config.Progress.next`). What a call comes to is
`Config.Invokes`, and how it ends `Config.EndsCall`.
-/

namespace Observable

variable {V : Type}

/-- A call that a round makes. -/
structure Notice (V : Type) where
  registration : Registration
  observed : Id
  old : V
  new : V

namespace Stack

/-- How many frames wait. -/
def depth {a : Awaits} (k : Stack V a) : Nat := k.tails.length

theorem depth_le {a : Awaits} {k : Stack V a} {x : (b : Awaits) × Stack V b} (hx : x ∈ k.tails) :
    x.2.depth ≤ k.depth :=
  length_tails_le hx

theorem eq_of_depth_le {a : Awaits} {k : Stack V a} {x : (b : Awaits) × Stack V b}
    (hx : x ∈ k.tails) (hdepth : k.depth ≤ x.2.depth) : x = ⟨a, k⟩ := by
  cases k with
  | idle => exact List.mem_singleton.1 hx
  | _ =>
    rcases List.mem_cons.1 hx with heq | hx
    · exact heq
    · exact absurd (Nat.le_trans hdepth (depth_le hx)) (Nat.not_succ_le_self _)

/-- There is one frame at each depth of a stack. -/
theorem eq_of_depth {a : Awaits} {k : Stack V a} {x y : (b : Awaits) × Stack V b}
    (hx : x ∈ k.tails) (hy : y ∈ k.tails) (hdepth : x.2.depth = y.2.depth) : x = y := by
  rcases mem_tails_or hx hy with h | h
  · exact eq_of_depth_le h (Nat.le_of_eq hdepth.symm)
  · exact (eq_of_depth_le h (Nat.le_of_eq hdepth)).symm

/-- The call of a registration waits above the round that made it. -/
@[simp] theorem depth_round (rest : List Registration) (observed : Id) (old new : V)
    (k : Stack V .round) : (round rest observed old new k).depth = k.depth + 1 := rfl

end Stack

namespace Config

variable {rest all : List Registration} {observed : Id} {old new : V} {k : Stack V .round}

/-! ## Calls and outcomes -/

/-- The call that a round over the frames of `k` is about to make. -/
def notice? (k : Stack V .round) (c : Config V) : Option (Notice V) :=
  match c.focus with
  | .round (r :: _) observed old new k' =>
    if k'.depth = k.depth then some ⟨r, observed, old, new⟩ else none
  | _ => none

/-- How a call has ended that was made by a round over the frames of `k`. -/
def outcome? (k : Stack V .round) (c : Config V) : Option (Except Error Unit) :=
  match c.focus with
  | .called r (.round _ _ _ _ k') => if k'.depth = k.depth then some r else none
  | _ => none

/-- The calls of a round, in order, in a history with its latest moment first. -/
def notices (k : Stack V .round) (history : List (Config V)) : List (Notice V) :=
  history.reverse.filterMap (notice? k)

/-- How the calls of a round ended, in order. -/
def outcomes (k : Stack V .round) (history : List (Config V)) : List (Except Error Unit) :=
  history.reverse.filterMap (outcome? k)

theorem notices_cons (k : Stack V .round) (c : Config V) (history : List (Config V)) :
    notices k (c :: history) = notices k history ++ (c.notice? k).toList := by
  unfold notices
  rw [List.reverse_cons, List.filterMap_append]
  cases h : c.notice? k <;> simp [h]

theorem outcomes_cons (k : Stack V .round) (c : Config V) (history : List (Config V)) :
    outcomes k (c :: history) = outcomes k history ++ (c.outcome? k).toList := by
  unfold outcomes
  rw [List.reverse_cons, List.filterMap_append]
  cases h : c.outcome? k <;> simp [h]

/-- A round over the frames of `k` has made a call that has not ended, after which it has still to
call `rest`. -/
def InCall (c : Config V) (rest : List Registration) (observed : Id) (old new : V)
    (k : Stack V .round) : Prop :=
  c.Waits (.round rest observed old new k) ∧ c.focus ≠ .round rest observed old new k

/-- How far a round has come that began with the registrations `all`, with the calls that it has
made and how they ended. -/
inductive Progress (all : List Registration) (observed : Id) (old new : V) (k : Stack V .round)
    (c : Config V) : List (Notice V) → List (Except Error Unit) → Prop
  /-- No call has failed, and the next one is to be made, if there is one. -/
  | between {called rest : List Registration} (hall : all = called ++ rest)
      (hfocus : c.focus = .round rest observed old new k) :
    Progress all observed old new k c (called.map (⟨·, observed, old, new⟩))
      (called.map fun _ => .ok ())
  /-- No call has failed, and `r` is being called. -/
  | calling {called rest : List Registration} {r : Registration} (hall : all = called ++ r :: rest)
      (hcall : c.InCall rest observed old new k) :
    Progress all observed old new k c ((called ++ [r]).map (⟨·, observed, old, new⟩))
      (called.map fun _ => .ok ())
  /-- All have been called, and none failed. -/
  | completed (hfocus : c.focus = .rounded (.ok ()) k) :
    Progress all observed old new k c (all.map (⟨·, observed, old, new⟩)) (all.map fun _ => .ok ())
  /-- The call of `r` failed, the first one to do so; those after it are not made. -/
  | failed {called rest : List Registration} {r : Registration} {e : Error}
      (hall : all = called ++ r :: rest) (hfocus : c.focus = .rounded (.error e) k) :
    Progress all observed old new k c ((called ++ [r]).map (⟨·, observed, old, new⟩))
      ((called.map fun _ => .ok ()) ++ [.error e])

/-! ## Inside a call -/

/-- What has a call waiting has the round waiting that made it. -/
theorem InCall.waits {c : Config V} (hcall : c.InCall rest observed old new k) : c.Waits k :=
  Stack.mem_tails_trans hcall.1 (List.mem_cons_of_mem _ (Stack.mem_tails_self k))

/-- What happens inside a call is at a greater depth than the frames of the call. -/
theorem InCall.frames_of_depth {c : Config V} (hcall : c.InCall rest observed old new k)
    {a : Awaits} {l : Stack V a} (hframes : c.focus.frames = ⟨a, l⟩)
    (hdepth : l.depth ≤ k.depth + 1) :
    (⟨a, l⟩ : (b : Awaits) × Stack V b) = ⟨_, .round rest observed old new k⟩ := by
  have hwaits := hcall.1
  unfold Waits at hwaits
  rw [hframes] at hwaits
  exact (Stack.eq_of_depth_le hwaits hdepth).symm

/-- So the calls of rounds inside it are not mistaken for those of the round that made it. -/
theorem InCall.notice?_eq_none {c : Config V} (hcall : c.InCall rest observed old new k) :
    c.notice? k = none := by
  unfold notice?
  split
  · next r rest' observed' old' new' k' hfocus =>
    refine if_neg fun hdepth => ?_
    have hlast := congrArg Focus.frames hfocus
    cases hcall.frames_of_depth hlast (Nat.succ_le_succ (Nat.le_of_eq hdepth))
    exact hcall.2 hfocus
  · rfl

/-- The outcomes inside a call are not those of the call. -/
theorem InCall.outcome?_eq_none {c : Config V} (hcall : c.InCall rest observed old new k)
    (hgoes : ∀ r, c.focus ≠ .called r (.round rest observed old new k)) :
    c.outcome? k = none := by
  unfold outcome?
  split
  · next r rest' observed' old' new' k' hfocus =>
    refine if_neg fun hdepth => ?_
    have hlast := congrArg Focus.frames hfocus
    cases hcall.frames_of_depth hlast (Nat.succ_le_succ (Nat.le_of_eq hdepth))
    exact hgoes r hfocus
  · rfl

/-- While a round waits for a call, no other call is made over its frames. -/
theorem InCall.ne_round {c : Config V} (hcall : c.InCall rest observed old new k)
    {rest' : List Registration} {observed' : Id} {old' new' : V} :
    c.focus ≠ .round rest' observed' old' new' k := by
  intro hfocus
  cases hcall.frames_of_depth (congrArg Focus.frames hfocus) (Nat.le_refl _)
  exact hcall.2 hfocus

variable [BEq V]

theorem commit_eq {s : State V} {k : Stack V .update} {old : V}
    (hold : s.world.value? k.updated = some old) (v : V) :
    s.commit v k =
      if old == v then ⟨s, .updated (.ok old) k⟩
      else
        ⟨({ s with world := s.world.store k.updated v } : State V).emit
            (.trace (.notifying k.updated (s.world.registrations k.updated).length)),
          .round (s.world.registrations k.updated) k.updated old v
            (.updating k.updated old k)⟩ := by
  unfold State.commit
  rw [hold]
  simp only
  rw [State.announce_store s k.updated old v (.updating k.updated old k) rfl]

omit [BEq V] in
theorem recompute_eq {s : State V} {i : Id} {old : V} (hold : s.world.value? i = some old) (v : V)
    (k : Stack V .call) :
    s.recompute i v k =
      ⟨({ s with world := s.world.store i v } : State V).emit
          (.trace (.notifying i (s.world.registrations i).length)),
        .round (s.world.registrations i) i old v (.recomputing i k)⟩ := by
  unfold State.recompute
  rw [hold]
  exact State.announce_store s i old v (.recomputing i k) rfl

/-- What begins a round over the frames of `k`: an operation that notifies a listener set, or the
write of a value in place of `old`, to a property or a binding. -/
inductive Opens (b : Config V) : Id → V → V → Stack V .round → Prop
  | notify {name announced : String} {i observed : Id} {old new : V} {below : Stack V .reply}
      (hfocus : b.focus = .operate (.notify name announced old new) below)
      (hname : b.state.world.find? name Handle.set? = some i)
      (hobserved : b.state.world.find? announced Handle.observable? = some observed) :
    Opens b observed old new (.notifying i observed below)
  | update {j : Id} {old new : V} {below : Stack V .update}
      (hfocus : b.focus = .run (@Script.stop V .validator (.ok new)) (.validating j below))
      (hold : b.state.world.value? below.updated = some old) (hne : (old == new) = false) :
    Opens b below.updated old new (.updating below.updated old below)
  | recompute {i : Id} {old new : V} {below : Stack V .call}
      (hfocus : b.focus = .run (@Script.stop V .converter new) (.converting i below))
      (hold : b.state.world.value? i = some old) : Opens b i old new (.recomputing i below)

/-- It begins in the next step, over what is registered then. -/
theorem Opens.step {b : Config V} (hb : b.Opens observed old new k) :
    ∃ s, b.step = some ⟨s, .round (b.state.world.registrations k.owner) observed old new k⟩ := by
  obtain ⟨s, f⟩ := b
  cases hb with
  | @notify name announced i j old new below hfocus hname hobserved =>
    cases hfocus
    refine ⟨s.emit (.trace (.notifying i (s.world.registrations i).length)), ?_⟩
    simp only [Config.step, State.operate, hname, hobserved]
    rfl
  | @update j old new below hfocus hold hne =>
    cases hfocus
    have hstep : Config.step ⟨s, .run (@Script.stop V .validator (.ok new)) (.validating j below)⟩ =
        some (s.commit new below) := rfl
    rw [commit_eq hold, if_neg (Bool.eq_false_iff.1 hne)] at hstep
    exact ⟨_, hstep⟩
  | @recompute _ _ _ below hfocus hold =>
    cases hfocus
    have hstep :
        Config.step ⟨s, .run (@Script.stop V .converter new) (.converting observed below)⟩ =
          some (s.recompute observed new below) := rfl
    rw [recompute_eq hold] at hstep
    exact ⟨_, hstep⟩

/-- What begins a round is an operation that notifies a set, or a write. -/
theorem Opens.written? {b : Config V} (hb : b.Opens observed old new k) :
    (∃ name, b.state.world.find? name Handle.set? = some k.owner) ∨
      (b.written? = some (k.owner, new) ∧ b.state.world.value? k.owner = some old) := by
  obtain ⟨s, f⟩ := b
  cases hb with
  | notify hfocus hname hobserved => exact .inl ⟨_, hname⟩
  | update hfocus hold hne =>
    cases hfocus
    exact .inr ⟨written?_validated _ hold hne, hold⟩
  | recompute hfocus hold =>
    cases hfocus
    exact .inr ⟨written?_converted hold, hold⟩

/-- A round comes to its next registration when a call has ended well, and it begins with what is
registered. -/
theorem Transition.round_cases {c d : Config V} (hmove : c.Transition d)
    (hfocus : d.focus = .round rest observed old new k) :
    c.focus = .called (.ok ()) (.round rest observed old new k) ∨
      (¬ c.Waits k ∧ c.Opens observed old new k ∧
        rest = d.state.world.registrations k.owner) := by
  cases hmove with
  | called s rest observed old new k =>
    cases hfocus
    exact .inl rfl
  | @notify s name observed i j k' old new hname hobserved =>
    cases hfocus
    refine .inr ⟨fun hwaits => ?_, .notify rfl hname hobserved, rfl⟩
    have hle := Stack.depth_le hwaits
    exact absurd hle (Nat.not_succ_le_self k'.depth)
  | @write s k' old v i hold hne =>
    cases hfocus
    refine .inr ⟨fun hwaits => ?_, .update rfl hold hne,
      (World.registrations_store ..).symm⟩
    -- The update that waits for its validator is below the round that it begins.
    rcases List.mem_cons.1 hwaits with heq | hmem
    · cases heq
    · exact absurd (Stack.depth_le hmem) (Nat.not_succ_le_self k'.depth)
  | @converted s i old v k' hold =>
    cases hfocus
    refine .inr ⟨fun hwaits => ?_, .recompute rfl hold,
      (World.registrations_store ..).symm⟩
    rcases List.mem_cons.1 hwaits with heq | hmem
    · cases heq
    · exact absurd (Stack.depth_le hmem) (Nat.not_succ_le_self k'.depth)
  | reject s i cause k' =>
    exact absurd hfocus (State.fail_cases (P := fun d => d.focus ≠ .round rest observed old new k)
      (fun h => by cases h) fun _ _ _ _ h => by cases h)
  | announceFailed s i old' e k' =>
    exact absurd hfocus (State.fail_cases (P := fun d => d.focus ≠ .round rest observed old new k)
      (fun h => by cases h) fun _ _ _ _ h => by cases h)
  | _ => cases hfocus

/-- A call goes on until it has ended. -/
theorem Transition.inCall {c d : Config V} (hmove : c.Transition d)
    (hcall : c.InCall rest observed old new k) :
    (∃ r, c.focus = .called r (.round rest observed old new k)) ∨
      d.InCall rest observed old new k := by
  rcases hmove.waits hcall.1 with hframes | hwaits
  · left
    obtain ⟨s, f⟩ := c
    cases f with
    | called r k' =>
      cases hframes
      exact ⟨r, rfl⟩
    | round rest' observed' old' new' k' =>
      cases hframes
      exact absurd rfl hcall.2
    | _ => cases hframes
  · by_cases hfocus : d.focus = .round rest observed old new k
    · rcases hmove.round_cases hfocus with hended | ⟨hnew, _, _⟩
      · exact .inl ⟨_, hended⟩
      · exact absurd hcall.waits hnew
    · exact .inr ⟨hwaits, hfocus⟩

/-- A round that goes on calls its next registration, and what it calls happens above it. -/
theorem Transition.inCall_of_round {c d : Config V} {r : Registration} (hmove : c.Transition d)
    (hfocus : c.focus = .round (r :: rest) observed old new k) :
    d.InCall rest observed old new k := by
  cases hmove with
  | callGone | send | boundGone | derivedGone =>
    cases hfocus
    exact ⟨Stack.mem_tails_self _, fun h => by cases h⟩
  | listen | convert =>
    cases hfocus
    exact ⟨List.mem_cons_of_mem _ (Stack.mem_tails_self _), fun h => by cases h⟩
  | deliver =>
    cases hfocus
    exact ⟨List.mem_cons_of_mem _ (List.mem_cons_of_mem _ (Stack.mem_tails_self _)),
      fun h => by cases h⟩
  | _ => cases hfocus

/-! ## One step of a round -/

omit [BEq V] in
/-- The frames of a round wait until it has ended. -/
theorem Progress.waits {c : Config V} {calls : List (Notice V)} {ends : List (Except Error Unit)}
    (hc : c.Progress all observed old new k calls ends) : c.Waits k := by
  unfold Waits
  cases hc with
  | between _ hfocus =>
    rw [hfocus]
    exact List.mem_cons_of_mem _ (Stack.mem_tails_self k)
  | calling _ hcall => exact hcall.waits
  | completed hfocus | failed _ hfocus =>
    rw [hfocus]
    exact Stack.mem_tails_self k

/-- How a call ends decides whether the round goes on. -/
theorem Transition.focus_of_called {c d : Config V} {r : Except Error Unit}
    (hmove : c.Transition d) (hfocus : c.focus = .called r (.round rest observed old new k)) :
    (r = .ok () ∧ d.focus = .round rest observed old new k) ∨
      ∃ e, r = .error e ∧ d.focus = .rounded (.error e) k := by
  cases hmove with
  | called =>
    cases hfocus
    exact .inl ⟨rfl, rfl⟩
  | callFailed s rest observed old new e k =>
    cases hfocus
    exact .inr ⟨e, rfl, rfl⟩
  | _ => cases hfocus

theorem Transition.focus_of_round_nil {c d : Config V} (hmove : c.Transition d)
    (hfocus : c.focus = .round [] observed old new k) : d.focus = .rounded (.ok ()) k := by
  cases hmove with
  | roundDone =>
    cases hfocus
    rfl
  | _ => cases hfocus

/-- A step makes the next call of a round, ends it, or happens inside it. -/
theorem Progress.next {c d : Config V} {calls : List (Notice V)} {ends : List (Except Error Unit)}
    (hc : c.Progress all observed old new k calls ends) (hmove : c.Transition d)
    (hopen : ∀ r, c.focus ≠ .rounded r k) :
    d.Progress all observed old new k (calls ++ (c.notice? k).toList)
      (ends ++ (c.outcome? k).toList) := by
  cases hc with
  | @between called rest hall hfocus =>
    have houtcome : c.outcome? k = none := by
      unfold outcome?
      rw [hfocus]
    rw [houtcome, Option.toList_none, List.append_nil]
    cases rest with
    | nil =>
      have hnotice : c.notice? k = none := by
        unfold notice?
        rw [hfocus]
      rw [hnotice, Option.toList_none, List.append_nil]
      rw [List.append_nil] at hall
      subst hall
      exact .completed (hmove.focus_of_round_nil hfocus)
    | cons r rest =>
      have hnotice : c.notice? k = some ⟨r, observed, old, new⟩ := by
        unfold notice?
        rw [hfocus]
        exact if_pos rfl
      have hcalls : called.map (⟨·, observed, old, new⟩) ++ (c.notice? k).toList =
          (called ++ [r]).map (⟨·, observed, old, new⟩) := by
        rw [hnotice, List.map_append]
        rfl
      rw [hcalls]
      exact .calling hall (hmove.inCall_of_round hfocus)
  | @calling called rest r hall hcall =>
    rw [hcall.notice?_eq_none, Option.toList_none, List.append_nil]
    by_cases hended : ∃ r, c.focus = .called r (.round rest observed old new k)
    · obtain ⟨result, hfocus⟩ := hended
      have houtcome : c.outcome? k = some result := by
        unfold outcome?
        rw [hfocus]
        exact if_pos rfl
      rw [houtcome]
      rcases hmove.focus_of_called hfocus with ⟨rfl, hnext⟩ | ⟨e, rfl, hnext⟩
      · have hends : (called.map fun _ => (.ok () : Except Error Unit)) ++ (some (.ok ())).toList =
            (called ++ [r]).map fun _ => .ok () := by
          rw [List.map_append]
          rfl
        rw [hends]
        refine .between ?_ hnext
        rw [hall, List.append_assoc]
        rfl
      · exact .failed hall hnext
    · have hgoes : ∀ r, c.focus ≠ .called r (.round rest observed old new k) :=
        fun r hr => hended ⟨r, hr⟩
      rw [hcall.outcome?_eq_none hgoes, Option.toList_none, List.append_nil]
      exact .calling hall ((hmove.inCall hcall).resolve_left hended)
  | completed hfocus => exact absurd hfocus (hopen _)
  | failed _ hfocus => exact absurd hfocus (hopen _)

/-! ## Whole rounds -/

/-- What holds of a round one step after its beginning, and is kept by every step, holds until its
end. -/
theorem Run.progress {allowed : Op V → Prop} {later before : List (Config V)} {c₀ c : Config V}
    (hrun : Run allowed (later ++ c₀ :: before) c)
    (hbegin : c₀.focus = .round all observed old new k)
    (hopen : ∀ d ∈ later, ∀ r, d.focus ≠ .rounded r k) :
    c.Progress all observed old new k (notices k (later ++ [c₀])) (outcomes k (later ++ [c₀])) := by
  induction later generalizing c with
  | nil =>
    have hfirst : c₀.Progress all observed old new k [] [] := .between (List.nil_append all).symm hbegin
    have hends : ∀ r, c₀.focus ≠ .rounded r k := fun r h => by
      rw [hbegin] at h
      cases h
    rw [List.nil_append, notices_cons, outcomes_cons]
    cases hrun with
    | step _ hstep => exact hfirst.next (.of_step hstep) hends
    | perform _ hreply _ => cases hfirst.waits.eq_idle hreply
  | cons d later ih =>
    have hlater : ∀ d ∈ later, ∀ r, d.focus ≠ .rounded r k :=
      fun d hd => hopen d (List.mem_cons_of_mem _ hd)
    rw [List.cons_append, notices_cons, outcomes_cons]
    cases hrun with
    | step hrun hstep => exact (ih hrun hlater).next (.of_step hstep) (hopen d List.mem_cons_self)
    | perform hrun hreply _ => cases (ih hrun hlater).waits.eq_idle hreply

omit [BEq V] in
/-- Another round that is in progress at the same time either was in progress before, or is above
the call that led to it. -/
theorem Progress.nested {c : Config V} {calls : List (Notice V)} {ends : List (Except Error Unit)}
    (hc : c.Progress all observed old new k calls ends) {k' : Stack V .round} (hk' : c.Waits k') :
    ⟨_, k'⟩ ∈ k.tails ∨ ∃ rest, c.InCall rest observed old new k ∧
      ⟨_, .round rest observed old new k⟩ ∈ k'.tails := by
  unfold Waits at hk'
  cases hc with
  | between _ hfocus =>
    rw [hfocus] at hk'
    rcases List.mem_cons.1 hk' with heq | hmem
    · cases heq
    · exact .inl hmem
  | @calling _ rest _ _ hcall =>
    rcases Stack.mem_tails_or hk' hcall.1 with hbelow | habove
    · rcases List.mem_cons.1 hbelow with heq | hmem
      · cases heq
      · exact .inl hmem
    · exact .inr ⟨rest, hcall, habove⟩
  | completed hfocus | failed _ hfocus =>
    rw [hfocus] at hk'
    exact .inl hk'

/-! ## What a call does -/

/-- What the call of a registration comes to, in a round that tells of a change of `observed` from
`old` to `new`; the frames of `k` go on after it. -/
inductive Invokes (c : Config V) (observed : Id) (old new : V) (k : Stack V .call) :
    Registration → Config V → Prop
  /-- A callback runs, and is told of the change and of the value that there is by now. -/
  | listen {l : ListenerId} {calls : Nat} {body : Call V → Script V .listener}
      (hl : c.state.world.listeners.get? l = some (.callback calls body)) :
    Invokes c observed old new k (.listener l)
      ⟨{ c.state with
          world := c.state.world.alterListener l fun _ => .callback (calls + 1) body },
        .run (body ⟨calls, observed, (c.state.world.value? observed).getD new, old, new⟩)
          (.listening k)⟩
  /-- A channel is sent the change. -/
  | send {l : ListenerId} {sent : List (Change V)} {taken : Nat}
      (hl : c.state.world.listeners.get? l = some (.channel sent taken)) :
    Invokes c observed old new k (.listener l)
      ⟨{ c.state with
          world := c.state.world.alterListener l fun _ => .channel (sent ++ [⟨old, new⟩]) taken },
        .called (.ok ()) k⟩
  /-- The validator of a bound property runs on the new value. -/
  | deliver {i : Id} {p : Property V} (hp : c.state.world.property? i = some p) :
    Invokes c observed old new k (.bound i)
      ⟨c.state, .run (p.validate new) (.validating i (.following i k))⟩
  /-- The converter of a binding runs on the new value. -/
  | convert {i : Id} {b : Binding V} (hb : c.state.world.binding? i = some b) :
    Invokes c observed old new k (.derived i) ⟨c.state, .run (b.convert new) (.converting i k)⟩
  /-- A target that is dead is left alone, and the call ends well. -/
  | dead {r : Registration} {i : Id} (htarget : r.target? = some i)
      (hdead : c.state.world.alive i = false) :
    Invokes c observed old new k r ⟨c.state, .called (.ok ()) k⟩

/-- How the call that the frames of `k` wait for ends in the next step: as its callback answers, as
the update of the bound property has ended, or as the round of the binding has. -/
inductive EndsCall (c : Config V) (k : Stack V .call) : Except Error Unit → Prop
  | listened {a : Except Cause Unit}
      (hfocus : c.focus = .run (@Script.stop V .listener a) (.listening k)) :
    EndsCall c k (a.mapError (·.during .listener))
  | followed {i : Id} {r : Except Error V} (hfocus : c.focus = .updated r (.following i k)) :
    EndsCall c k (r.map fun _ => ())
  | recomputed {i : Id} {r : Except Error Unit} (hfocus : c.focus = .rounded r (.recomputing i k)) :
    EndsCall c k r

theorem step_of_round_cons {c : Config V} {r : Registration}
    (hfocus : c.focus = .round (r :: rest) observed old new k) :
    c.step = some (c.state.call r observed old new (.round rest observed old new k)) := by
  rw [Config.step, hfocus]

/-- A registration whose target is dead at its turn does nothing, and its call ends well. -/
theorem step_of_dead_target {c : Config V} {r : Registration} {i : Id}
    (hfocus : c.focus = .round (r :: rest) observed old new k) (htarget : r.target? = some i)
    (hdead : c.state.world.alive i = false) :
    c.step = some ⟨c.state, .called (.ok ()) (.round rest observed old new k)⟩ := by
  obtain ⟨s, f⟩ := c
  cases hfocus
  have hobject : s.world.object? i = none := by
    simpa [World.alive] using hdead
  cases r with
  | listener l => cases htarget
  | bound j =>
    cases htarget
    simp [step, State.call, World.property?, hobject]
  | derived j =>
    cases htarget
    simp [step, State.call, World.binding?, hobject]

/-- A target that was registered and lives is still what it was registered as. -/
theorem Run.target_of_registered {allowed : Op V → Prop} {later before : List (Config V)}
    {c₀ c : Config V} (hrun : Run allowed (later ++ c₀ :: before) c) {j i : Id} {r : Registration}
    (hmem : r ∈ c₀.state.world.registrations j) (htarget : r.target? = some i)
    (halive : c.state.world.alive i = true) :
    (∃ p, r = .bound i ∧ c.state.world.property? i = some p) ∨
      ∃ b, r = .derived i ∧ c.state.world.binding? i = some b := by
  have hrelation := hrun.of_append.sound.world.linked.relation?_of_mem hmem htarget
  have hlt := World.lt_size_of_alive (World.alive_of_relation? hrelation)
  have hshape := hrun.shape?_kept hlt halive
  rcases World.dependent_of_relation? hrelation with ⟨p, hp, _, hr⟩ | ⟨b, hb, _, hr⟩
  · rw [World.shape?_eq_property_iff.2 ⟨p, hp⟩] at hshape
    obtain ⟨p', hp'⟩ := World.shape?_eq_property_iff.1 hshape
    exact .inl ⟨p', hr, hp'⟩
  · rw [World.shape?_eq_binding_iff.2 ⟨b, hb⟩] at hshape
    obtain ⟨b', hb'⟩ := World.shape?_eq_binding_iff.1 hshape
    exact .inr ⟨b', hr, hb'⟩

/-- A round that comes to a registration calls it, or finds its target dead. -/
theorem Run.invokes {allowed : Op V → Prop} {later before : List (Config V)} {c₀ c : Config V}
    (hrun : Run allowed (later ++ c₀ :: before) c) {j : Id} {r : Registration}
    (hmem : r ∈ c₀.state.world.registrations j)
    (hfocus : c.focus = .round (r :: rest) observed old new k) :
    ∃ d, c.step = some d ∧ c.Invokes observed old new (.round rest observed old new k) r d := by
  cases r with
  | listener l =>
    obtain ⟨x, hx⟩ := hrun.listener_of_registered hmem
    refine ⟨_, step_of_round_cons hfocus, ?_⟩
    cases x with
    | callback calls body =>
      simp only [State.call, hx]
      rw [World.alterListener_of_get? hx]
      exact .listen hx
    | channel sent taken =>
      simp only [State.call, hx]
      rw [World.alterListener_of_get? hx]
      exact .send hx
  | bound i =>
    cases halive : c.state.world.alive i with
    | false => exact ⟨_, step_of_dead_target hfocus rfl halive, .dead rfl halive⟩
    | true =>
      obtain ⟨p, _, hp⟩ | ⟨_, hr, _⟩ := hrun.target_of_registered hmem rfl halive
      · refine ⟨_, step_of_round_cons hfocus, ?_⟩
        simp only [State.call, hp]
        exact .deliver hp
      · cases hr
  | derived i =>
    cases halive : c.state.world.alive i with
    | false => exact ⟨_, step_of_dead_target hfocus rfl halive, .dead rfl halive⟩
    | true =>
      obtain ⟨_, hr, _⟩ | ⟨b, _, hb⟩ := hrun.target_of_registered hmem rfl halive
      · cases hr
      · refine ⟨_, step_of_round_cons hfocus, ?_⟩
        simp only [State.call, hb]
        exact .convert hb

omit [BEq V] in
/-- What a round has still to call was registered when it began. -/
theorem Progress.mem_of_round {c : Config V} {calls : List (Notice V)}
    {ends : List (Except Error Unit)} {r : Registration}
    (hc : c.Progress all observed old new k calls ends)
    (hfocus : c.focus = .round (r :: rest) observed old new k) : r ∈ all := by
  cases hc with
  | between hall hround =>
    rw [hround] at hfocus
    cases hfocus
    rw [hall]
    exact List.mem_append_right _ List.mem_cons_self
  | calling _ hcall => exact absurd hfocus hcall.ne_round
  | completed hround | failed _ hround =>
    rw [hround] at hfocus
    cases hfocus

theorem EndsCall.step {c : Config V} {r : Except Error Unit} {k : Stack V .call}
    (hc : c.EndsCall k r) : ∃ s, c.step = some ⟨s, .called r k⟩ := by
  obtain ⟨s, f⟩ := c
  cases hc with
  | @listened a hfocus =>
    cases hfocus
    cases a <;> exact ⟨_, rfl⟩
  | @followed i r hfocus =>
    cases hfocus
    cases r <;> exact ⟨_, rfl⟩
  | recomputed hfocus =>
    cases hfocus
    exact ⟨_, rfl⟩

/-- A call in progress ends in no other way. -/
theorem Sound.endsCall {c d : Config V} (hc : c.Sound) (hstep : c.step = some d)
    {r : Except Error Unit} (hcall : c.InCall rest observed old new k)
    (hfocus : d.focus = .called r (.round rest observed old new k)) :
    c.EndsCall (.round rest observed old new k) r := by
  cases Transition.of_step hstep with
  | listened =>
    cases hfocus
    exact .listened (a := .ok ()) rfl
  | listenFailed s cause =>
    cases hfocus
    exact .listened (a := .error cause) rfl
  | followed s r =>
    cases hfocus
    cases r with
    | ok v => exact .followed (r := .ok v) rfl
    | error e => exact .followed (r := .error e) rfl
  | recomputed =>
    cases hfocus
    exact .recomputed rfl
  | convertedGone v k hgone =>
    -- What converts anew is a binding that lives.
    obtain ⟨b, hb⟩ := World.shape?_eq_binding_iff.1 hc.frames.1
    rw [World.value?_of_binding? hb] at hgone
    cases hgone
  | callGone | send | boundGone | derivedGone =>
    cases hfocus
    exact absurd rfl hcall.ne_round
  | reject | announceFailed =>
    exact absurd hfocus (State.fail_cases
      (P := fun d => d.focus ≠ .called r (.round rest observed old new k)) (fun h => by cases h)
      fun _ _ _ _ h => by cases h)
  | _ => cases hfocus

/-- An operation that notifies a set returns how its round ended. -/
theorem step_of_notified {c : Config V} {r : Except Error Unit} {i j : Id} {below : Stack V .reply}
    (hfocus : c.focus = .rounded r (.notifying i j below)) :
    ∃ s, c.step = some ⟨s, .reply (.ofRound r) below⟩ := by
  obtain ⟨s, f⟩ := c
  cases hfocus
  cases r <;> exact ⟨_, rfl⟩

/-! ## Rounds in order -/

/-- How a round goes that begins in the step from `b` to `c₀` with the registrations `all`; `later`
goes back to its beginning. -/
structure Orderly (c b c₀ : Config V) (later : List (Config V)) (all : List Registration)
    (observed : Id) (old new : V) (k : Stack V .round) : Prop where
  /-- A round begins with an operation that notifies a set, or with a write. -/
  opened : b.Opens observed old new k
  /-- It is over what is registered then. -/
  snapshot : all = c₀.state.world.registrations k.owner
  /-- It makes its calls in order, each about the change that it announces, up to the first one that
  fails; it ends with that failure or, if there is none, well. -/
  progress : c.Progress all observed old new k (notices k (later ++ [c₀]))
    (outcomes k (later ++ [c₀]))
  /-- It does not stop of its own accord. -/
  goes : ∃ d, c.step = some d
  /-- What each call comes to. -/
  calls : ∀ r rest, c.focus = .round (r :: rest) observed old new k →
    ∃ d, c.step = some d ∧ c.Invokes observed old new (.round rest observed old new k) r d
  /-- How each call ends. -/
  ended : ∀ r rest, c.EndsCall (.round rest observed old new k) r →
    ∃ s, c.step = some ⟨s, .called r (.round rest observed old new k)⟩
  /-- No call in progress ends in another way. -/
  ends : ∀ r rest d, c.InCall rest observed old new k → c.step = some d →
    d.focus = .called r (.round rest observed old new k) →
    c.EndsCall (.round rest observed old new k) r
  /-- An operation that notifies a set returns how its round ended. -/
  returned : ∀ r i j below, k = .notifying i j below → c.focus = .rounded r k →
    ∃ s, c.step = some ⟨s, .reply (.ofRound r) below⟩
  /-- Whatever opens a round begins one, over what is registered at that moment. -/
  begins : ∀ (d : Config V) observed' old' new' k', d.Opens observed' old' new' k' →
    ∃ s, d.step = some
      ⟨s, .round (d.state.world.registrations k'.owner) observed' old' new' k'⟩
  /-- Any other round that is in progress was so before, or is above the call that led to it: it
  begins after that call has begun and is over before that call has ended. -/
  nested : ∀ k' : Stack V .round, c.Waits k' → ⟨_, k'⟩ ∈ k.tails ∨
    ∃ rest, c.InCall rest observed old new k ∧ ⟨_, .round rest observed old new k⟩ ∈ k'.tails

/-- In every run, whatever the listeners do, a round goes as `Orderly` says. -/
theorem Run.round_calls {allowed : Op V → Prop} {later before : List (Config V)} {b c₀ c : Config V}
    (hrun : Run allowed (later ++ c₀ :: b :: before) c)
    (hbegin : c₀.focus = .round all observed old new k) (hnew : ¬ b.Waits k)
    (hopen : ∀ d ∈ later, ∀ r, d.focus ≠ .rounded r k) :
    c.Orderly b c₀ later all observed old new k := by
  have hprogress := hrun.progress hbegin hopen
  obtain ⟨hopens, hall⟩ : b.Opens observed old new k ∧
      all = c₀.state.world.registrations k.owner := by
    cases hrun.of_append with
    | step _ hstep =>
      rcases (Transition.of_step hstep).round_cases hbegin with hcalled | ⟨_, hopens, hall⟩
      · -- The round would have been in progress before.
        refine absurd ?_ hnew
        unfold Waits
        rw [hcalled]
        exact List.mem_cons_of_mem _ (Stack.mem_tails_self k)
      · exact ⟨hopens, hall⟩
    | perform _ _ _ => cases hbegin
  constructor
  case opened => exact hopens
  case snapshot => exact hall
  case progress => exact hprogress
  case goes =>
    cases hstep : c.step with
    | none => cases hprogress.waits.eq_idle ((step_eq_none_iff c).1 hstep)
    | some d => exact ⟨d, rfl⟩
  case calls =>
    intro r rest hfocus
    have hmem := hprogress.mem_of_round hfocus
    rw [hall] at hmem
    exact hrun.invokes hmem hfocus
  case ended => exact fun r rest hends => hends.step
  case ends => exact fun r rest d hcall hstep => hrun.sound.endsCall hstep hcall
  case returned =>
    rintro r i j below rfl hfocus
    exact step_of_notified hfocus
  case begins => exact fun d observed old new k hd => hd.step
  case nested => exact fun k' hk' => hprogress.nested hk'

/-- A listener that comes first in a round removes the one after it, adds one that fails, and sets
the same property again. The inner round fails at the listener that was added; the outer round
nevertheless calls the listener that was removed, does not call the one that was added, and ends
well. -/
theorem round_calls_reentrant : ∃ (later before : List (Config Nat)) (b c₀ c : Config Nat)
    (k : Stack Nat .round),
    Run (fun _ => True) (later ++ c₀ :: b :: before) c ∧
      c₀.focus = .round [.listener 0, .listener 1] 0 0 1 k ∧ ¬ b.Waits k ∧
      (∀ d ∈ later, ∀ r, d.focus ≠ .rounded r k) ∧
      c.focus = .rounded (.ok ()) k ∧
      c.state.world.registrations 0 = [.listener 0, .listener 2] ∧
      notices k (later ++ [c₀]) = [⟨.listener 0, 0, 0, 1⟩, ⟨.listener 1, 0, 0, 1⟩] ∧
      c.Orderly b c₀ later [.listener 0, .listener 1] 0 0 1 k := by
  have hproperty : Run (fun _ => True) _
      (start {} (.act (.property "p" 0 (fun v => .stop (.ok v)) none))) := .start trivial
  have hfirst : Run (fun _ => True) _ (start _ (.act (.listener "a" fun call =>
      if call.earlier = 0 then
        .perform (.act (.remove "p" "b")) fun _ =>
          .perform (.act (.add "p" "c")) fun _ => .perform (.set "p" 2) fun _ => .stop (.ok ())
      else .stop (.ok ())))) := (hproperty.step rfl).perform rfl trivial
  have hsecond : Run (fun _ => True) _ (start _ (.act (.listener "b" fun _ => .stop (.ok ())))) :=
    (hfirst.step rfl).perform rfl trivial
  have hthird : Run (fun _ => True) _
      (start _ (.act (.listener "c" fun _ => .stop (.error (.text "no"))))) :=
    (hsecond.step rfl).perform rfl trivial
  have haddFirst : Run (fun _ => True) _ (start _ (.act (.add "p" "a"))) :=
    (hthird.step rfl).perform rfl trivial
  have haddSecond : Run (fun _ => True) _ (start _ (.act (.add "p" "b"))) :=
    (haddFirst.step rfl).perform rfl trivial
  have hset : Run (fun _ => True) _ (start _ (.set "p" 1)) :=
    (haddSecond.step rfl).perform rfl trivial
  have hlast := (((hset.step rfl).step rfl).step rfl).iterate 24
  refine ⟨_, _, _, _, _, .updating 0 0 (.setting 0 .idle), hlast, rfl, ?hnew, ?hopen, rfl, rfl, rfl,
    hlast.round_calls rfl ?hnew ?hopen⟩
  case hnew =>
    -- The operation that begins the round waits for the validator.
    intro hwaits
    rcases List.mem_cons.1 hwaits with heq | hwaits
    · cases heq
    · exact absurd (Stack.depth_le hwaits) (by decide)
  case hopen =>
    intro d hd r hfocus
    have hinside := (List.all_eq_true (p := fun d : Config Nat =>
      match d.focus with
      | .rounded _ k => k.depth != 3
      | _ => true)).1 (by rfl) d hd
    rw [hfocus] at hinside
    cases hinside

end Config

end Observable
