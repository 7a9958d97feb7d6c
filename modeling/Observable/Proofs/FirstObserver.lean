import Observable.Proofs.History

/-!
# What the first observer sees

A channel that is added to the empty list of an observable stays at the head of that list. Nothing
runs between the moment a value is stored and the call of the first listener, so whatever callbacks
do, the changes sent through the channel lead one after the other from the value the observable had
when the channel was added to the value it has now (`Config.Run.chain_of_first`). The equality of
values is not used: a chain joins at identical values.

The invariant is `Config.Observes`. It has two phases, before and after the call of the channel in
a round of the observable, and it needs that the channel is in no other list and in no round that is
still to be finished (`Config.Unused` says so of the time before).
-/

namespace Observable

variable {V : Type}

/-- Changes that lead from one value to another, each beginning where the one before it ended. -/
def Chain : V → List (Change V) → V → Prop
  | v, [], w => v = w
  | v, c :: cs, w => c.old = v ∧ Chain c.new cs w

theorem Chain.concat {u v w : V} {cs : List (Change V)} (hcs : Chain u cs v) :
    Chain u (cs ++ [⟨v, w⟩]) w := by
  induction cs generalizing u with
  | nil =>
    have huv : u = v := hcs
    exact ⟨huv.symm, rfl⟩
  | cons c cs ih => exact ⟨hcs.1, ih hcs.2⟩

/-! ## Registrations still to be called -/

namespace Focus

/-- A round is about to call the next of its registrations, or to end. -/
def IsRound : Focus V → Prop
  | .round _ _ _ _ _ => True
  | _ => False

end Focus

namespace Config

variable [BEq V]

omit [BEq V] in
theorem pending_fail (s : State V) (e : Error) (k : Stack V .update) :
    (s.fail e k).focus.pending = k.pending :=
  State.fail_cases (P := fun d => d.focus.pending = k.pending) rfl fun _ _ _ _ => rfl

/-- A stored value is announced at once, to everything in the list. -/
theorem announced_of_written? {c d : Config V} (hstep : c.step = some d) {i : Id} {new : V}
    (hwritten : c.written? = some (i, new)) :
    ∃ old k, c.state.world.value? i = some old ∧ d.state.world = c.state.world.store i new ∧
      d.focus = .round (c.state.world.registrations i) i old new k ∧
      k.pending = c.focus.pending := by
  cases Transition.of_step hstep with
  | @write s k old v j hold hne =>
    have hwhere : some (k.updated, v) = some (i, new) := by
      rw [← hwritten]
      simp [written?, State.written?, hold, hne]
    cases hwhere
    exact ⟨old, _, hold, rfl, rfl, rfl⟩
  | @converted s j old v k hold =>
    have hwhere : some (j, v) = some (i, new) := by
      rw [← hwritten, written?_converting, hold]
      rfl
    cases hwhere
    exact ⟨old, _, hold, rfl, rfl, rfl⟩
  | gone j v hgone => simp [written?, State.written?, hgone] at hwritten
  | unchanged j hold heq => simp [written?, State.written?, hold, heq] at hwritten
  | convertedGone v k hgone =>
    rw [written?_converting, hgone] at hwritten
    cases hwritten
  | _ => cases hwritten

/-- A step begins a round over the list of a bare set or of what it writes, or nothing is added to
what has still to be called. -/
theorem Transition.pending {c d : Config V} (hc : c.Sound) (hmove : c.Transition d) :
    (∀ r ∈ d.focus.pending, r ∈ c.focus.pending) ∨
      ∃ i, (∀ r ∈ d.focus.pending, r ∈ c.state.world.registrations i ∨ r ∈ c.focus.pending) ∧
        (c.state.world.shape? i = some .bare ∨ ∃ v, c.written? = some (i, v)) := by
  cases hmove with
  | act | setUnknown | setBound | set | notifyUnknown | wrapUnknown | wrap =>
    exact .inl fun _ hr => hr
  | resume | emit | perform => exact .inl fun _ hr => hr
  | gone | unchanged | reported | announced => exact .inl fun _ hr => hr
  | setDone | followed | wrapped | convertedGone | recomputed => exact .inl fun _ hr => hr
  | roundDone | called | listened | listenFailed | notified => exact .inl fun _ hr => hr
  | reject | announceFailed =>
    left
    intro r hr
    rw [pending_fail] at hr
    exact hr
  | callGone | boundGone | derivedGone | send => exact .inl fun _ hr => List.mem_cons_of_mem _ hr
  | listen | deliver | convert => exact .inl fun _ hr => List.mem_cons_of_mem _ hr
  | callFailed => exact .inl fun _ hr => List.mem_append_right _ hr
  | @notify s name observed i j k old new hname hobserved =>
    refine .inr ⟨i, ?_, .inl (hc.world.shape?_of_set hname)⟩
    intro r hr
    exact List.mem_append.1 hr
  | @write s k old v i hold hne =>
    refine .inr ⟨k.updated, ?_, .inr ⟨v, by simp [written?, State.written?, hold, hne]⟩⟩
    intro r hr
    exact List.mem_append.1 hr
  | @converted s i old v k hold =>
    refine .inr ⟨i, ?_, .inr ⟨v, by rw [written?_converting, hold]; rfl⟩⟩
    intro r hr
    exact List.mem_append.1 hr

/-- What is in no list that a round may be begun over does not get to be called. -/
theorem not_pending_of_step {c d : Config V} (hc : c.Sound) (hstep : c.step = some d)
    {r : Registration} (hpending : r ∉ c.focus.pending)
    (hlists : ∀ j, r ∈ c.state.world.registrations j →
      c.state.world.shape? j ≠ some .bare ∧ ∀ v, c.written? ≠ some (j, v)) :
    r ∉ d.focus.pending := by
  intro hmem
  rcases Transition.pending hc (.of_step hstep) with hless | ⟨j, hannounced, hkind⟩
  · exact hpending (hless _ hmem)
  · rcases hannounced _ hmem with hlist | hlist
    · obtain ⟨hbare, hwritten⟩ := hlists j hlist
      rcases hkind with h | ⟨v, h⟩
      · exact hbare h
      · exact hwritten v h
    · exact hpending hlist

/-! ## How often a listener is in a list -/

/-- A step that does not add a listener leaves no list with more of it. -/
theorem count_listener_le {c d : Config V} (hc : c.Sound) (hstep : c.step = some d)
    {l : ListenerId} (hadd : ∀ j, c.added? ≠ some (j, l)) (j : Id) :
    (d.state.world.registrations j).count (.listener l) ≤
      (c.state.world.registrations j).count (.listener l) := by
  cases halive : d.state.world.alive j with
  | false =>
    have hdead : d.state.world.object? j = none := by
      simpa [World.alive] using halive
    rw [World.registrations_of_dead hdead]
    exact Nat.zero_le _
  | true =>
    rcases registrations_of_step hc hstep halive with ⟨m, hm, hlist⟩ | ⟨m, _, hlist⟩ |
      ⟨_, _, hkept⟩
    · have hne : Registration.listener m ≠ .listener l := by
        intro heq
        cases heq
        exact hadd j hm
      rw [hlist, List.count_append, List.count_cons_of_ne hne]
      exact Nat.le_refl _
    · rw [hlist]
      exact (List.erase_sublist).count_le _
    · apply Nat.le_of_eq
      apply hkept.countP_listener
      intro r t ht
      simpa using Ne.symm (World.listener_ne ht)

/-- A listener at the head of a live list stays there until it is removed. -/
theorem head_listener_kept {c d : Config V} (hc : c.Sound) (hstep : c.step = some d) {i : Id}
    {l : ListenerId} (hremove : c.removed? ≠ some (i, l))
    (halive : d.state.world.alive i = true) {rest : List Registration}
    (hhead : c.state.world.registrations i = .listener l :: rest) :
    ∃ rest', d.state.world.registrations i = .listener l :: rest' := by
  rcases registrations_of_step hc hstep halive with ⟨m, _, hlist⟩ | ⟨m, hm, hlist⟩ | ⟨_, _, hkept⟩
  · refine ⟨rest ++ [.listener m], ?_⟩
    rw [hlist, hhead]
    rfl
  · have hne : l ≠ m := by
      rintro rfl
      exact hremove hm
    refine ⟨rest.erase (.listener m), ?_⟩
    rw [hlist, hhead, List.erase_cons_tail (by simpa using hne)]
  · exact hkept.head_listener hhead

/-! ## Before the channel is added -/

/-- The listener is in no list and in no round in progress, and nothing was sent to it. -/
structure Unused (l : ListenerId) (c : Config V) : Prop where
  lists : ∀ j, (c.state.world.registrations j).count (.listener l) = 0
  pending : Registration.listener l ∉ c.focus.pending
  sent : ∀ changes, c.state.world.sent? l = some changes → changes = []

omit [BEq V] in
theorem Unused.not_mem {c : Config V} {l : ListenerId} (hunused : c.Unused l) (j : Id) :
    Registration.listener l ∉ c.state.world.registrations j := by
  intro hmem
  have hpos := List.count_pos_iff.2 hmem
  have hzero := hunused.lists j
  omega

/-- What is not about to be called in a round is not at the head of it. -/
theorem sent?_of_not_pending {c d : Config V} (hstep : c.step = some d) {l : ListenerId}
    (hpending : Registration.listener l ∉ c.focus.pending) :
    d.state.world.sent? l = c.state.world.sent? l ∨
      (c.state.world.sent? l = none ∧ d.state.world.sent? l = some []) := by
  apply (Effect.of_transition (.of_step hstep)).sent?
  intro rest observed old new k hfocus
  apply hpending
  rw [hfocus]
  exact List.mem_cons_self

theorem Unused.step {c d : Config V} (hc : c.Sound) {l : ListenerId} (hunused : c.Unused l)
    (hadd : ∀ j, c.added? ≠ some (j, l)) (hstep : c.step = some d) : d.Unused l := by
  constructor
  · intro j
    have hle := count_listener_le hc hstep hadd j
    have hzero := hunused.lists j
    omega
  · exact not_pending_of_step hc hstep hunused.pending
      fun j hmem => absurd hmem (hunused.not_mem j)
  · intro changes hchanges
    rcases sent?_of_not_pending hstep hunused.pending with hsame | ⟨_, hnew⟩
    · rw [hsame] at hchanges
      exact hunused.sent changes hchanges
    · rw [hnew] at hchanges
      exact (Option.some.inj hchanges).symm

/-- A listener that was never added is not used. -/
theorem Run.unused {allowed : Op V → Prop} {past : List (Config V)} {c : Config V}
    (hrun : Run allowed past c) {l : ListenerId} (hadd : ∀ d ∈ past, ∀ j, d.added? ≠ some (j, l)) :
    c.Unused l := by
  induction hrun with
  | start hop =>
    constructor
    · intro j
      rfl
    · intro hpending
      cases hpending
    · intro changes hchanges
      cases hchanges
  | @step past c d hrun hstep ih =>
    have hbefore := ih fun e he => hadd e (List.mem_cons_of_mem _ he)
    exact hbefore.step hrun.sound (hadd c List.mem_cons_self) hstep
  | @perform past c op hrun hreply hop ih =>
    have hbefore := ih fun e he => hadd e (List.mem_cons_of_mem _ he)
    constructor
    · exact hbefore.lists
    · intro hpending
      cases hpending
    · exact hbefore.sent

/-! ## After it was added -/

/-- Where the changes sent through a channel have led from `v`: to the present value, or to the one
before it while the channel is the next to be called. -/
inductive Delivered (i : Id) (l : ListenerId) (v : V) (c : Config V) : Prop
  | settled {changes : List (Change V)} {w : V} (hsent : c.state.world.sent? l = some changes)
      (hvalue : c.state.world.value? i = some w) (hchain : Chain v changes w)
      (hpending : Registration.listener l ∉ c.focus.pending)
  | due {changes : List (Change V)} {old new : V} {rest : List Registration} {observed : Id}
      {k : Stack V .round} (hsent : c.state.world.sent? l = some changes)
      (hvalue : c.state.world.value? i = some new) (hchain : Chain v changes old)
      (hfocus : c.focus = .round (.listener l :: rest) observed old new k)
      (hpending : Registration.listener l ∉ rest ++ k.pending)

/-- A channel is the first listener of an object, and nowhere else. -/
structure Observes (i : Id) (l : ListenerId) (v : V) (c : Config V) : Prop where
  head : ∃ rest, c.state.world.registrations i = .listener l :: rest
  lists : ∀ j, (c.state.world.registrations j).count (.listener l) ≤ if j = i then 1 else 0
  delivered : c.Delivered i l v

omit [BEq V] in
theorem Observes.eq_of_mem {c : Config V} {i j : Id} {l : ListenerId} {v : V}
    (hc : c.Observes i l v) (hmem : Registration.listener l ∈ c.state.world.registrations j) :
    j = i := by
  have hle := hc.lists j
  have hpos := List.count_pos_iff.2 hmem
  by_cases hji : j = i
  · exact hji
  · rw [if_neg hji] at hle
    omega

omit [BEq V] in
/-- What comes after the head is not it again. -/
theorem Observes.not_mem_rest {c : Config V} {i : Id} {l : ListenerId} {v : V}
    (hc : c.Observes i l v) {rest : List Registration}
    (hhead : c.state.world.registrations i = .listener l :: rest) :
    Registration.listener l ∉ rest := by
  have hle := hc.lists i
  rw [hhead, List.count_cons_self, if_pos rfl] at hle
  intro hmem
  have hpos := List.count_pos_iff.2 hmem
  omega

/-- The call of a channel sends the change that the round is about. -/
theorem step_send {c d : Config V} (hstep : c.step = some d) {l : ListenerId}
    {rest : List Registration} {observed : Id} {old new : V} {k : Stack V .round}
    (hfocus : c.focus = .round (.listener l :: rest) observed old new k)
    {changes : List (Change V)} (hsent : c.state.world.sent? l = some changes) :
    d = ⟨{ c.state with world := c.state.world.alterListener l (Listener.send ⟨old, new⟩) },
      .called (.ok ()) (.round rest observed old new k)⟩ := by
  obtain ⟨s, f⟩ := c
  cases hfocus
  obtain ⟨x, hx, hchanges⟩ := Option.bind_eq_some_iff.1 hsent
  cases x with
  | callback calls body => cases hchanges
  | channel sent taken =>
    have hcall : s.call (.listener l) observed old new (.round rest observed old new k) = d :=
      Option.some.inj hstep
    rw [← hcall]
    simp only [State.call, hx]

theorem Delivered.step {c d : Config V} (hc : c.Sound) {i : Id} {l : ListenerId} {v : V}
    (hobserves : c.Observes i l v) (hstep : c.step = some d)
    (halive : d.state.world.alive i = true) : d.Delivered i l v := by
  obtain ⟨rest, hhead⟩ := hobserves.head
  have hrest := hobserves.not_mem_rest hhead
  cases hobserves.delivered with
  | @due changes old new rest observed k hsent hvalue hchain hfocus hpending =>
    -- The step calls the channel, and the change leads on to the present value.
    rw [step_send hstep hfocus hsent]
    refine .settled ?_ hvalue hchain.concat hpending
    rw [World.sent?_send, hsent]
    rfl
  | @settled changes w hsent hvalue hchain hpending =>
    have hkept : d.state.world.sent? l = some changes := by
      rcases sent?_of_not_pending hstep hpending with hsame | ⟨hnone, _⟩
      · rw [hsame, hsent]
      · rw [hsent] at hnone
        cases hnone
    by_cases hwritten : ∃ new, c.written? = some (i, new)
    · obtain ⟨new, hnew⟩ := hwritten
      obtain ⟨old, k, hold, hworld, hfocus, hk⟩ := announced_of_written? hstep hnew
      rw [hvalue] at hold
      cases hold
      -- The round that the write begins goes over the list with the channel at its head.
      rw [hhead] at hfocus
      refine .due hkept ?_ hchain hfocus ?_
      · rw [hworld]
        exact World.value?_store_self hvalue _
      · rw [hk]
        intro hmem
        rcases List.mem_append.1 hmem with h | h
        · exact hrest h
        · exact hpending h
    · have hlt : i < c.state.world.objects.size :=
        World.lt_size_of_alive (World.alive_of_mem_registrations (by
          rw [hhead]
          exact List.mem_cons_self))
      have hsame : d.state.world.value? i = some w := by
        rw [(Effect.of_transition (.of_step hstep)).value? hlt halive
          fun new hnew => hwritten ⟨new, hnew⟩]
        exact hvalue
      refine .settled hkept hsame hchain (not_pending_of_step hc hstep hpending ?_)
      intro j hmem
      -- The only list with the channel is the observable's, which is no bare set and not written.
      have hji := hobserves.eq_of_mem hmem
      rw [hji]
      exact ⟨World.shape?_ne_bare_of_value? hvalue, fun new hnew => hwritten ⟨new, hnew⟩⟩

theorem Observes.step {c d : Config V} (hc : c.Sound) {i : Id} {l : ListenerId} {v : V}
    (hobserves : c.Observes i l v) (hadd : ∀ j, c.added? ≠ some (j, l))
    (hremove : c.removed? ≠ some (i, l)) (hstep : c.step = some d)
    (halive : d.state.world.alive i = true) : d.Observes i l v := by
  obtain ⟨rest, hhead⟩ := hobserves.head
  refine ⟨head_listener_kept hc hstep hremove halive hhead, ?_,
    Delivered.step hc hobserves hstep halive⟩
  intro j
  exact Nat.le_trans (count_listener_le hc hstep hadd j) (hobserves.lists j)

/-- The channel begins to observe when it is added to an empty list. -/
theorem Unused.observes {c d : Config V} (hc : c.Sound) {i : Id} {l : ListenerId} {v : V}
    (hunused : c.Unused l) (hadd : c.added? = some (i, l))
    (hempty : c.state.world.registrations i = []) (hvalue : c.state.world.value? i = some v)
    (hchannel : (c.state.world.sent? l).isSome = true) (hstep : c.step = some d) :
    d.Observes i l v := by
  have hworld := register_of_added? hstep hadd
  have hregistrations := World.registrations_register c.state.world i i (.listener l)
    (hc.alive_of_added? hadd)
  obtain ⟨changes, hchanges⟩ := Option.isSome_iff_exists.1 hchannel
  have hnone := hunused.sent changes hchanges
  refine ⟨⟨[], ?_⟩, ?_, ?_⟩
  · rw [hworld, hregistrations, if_pos rfl, hempty]
    rfl
  · intro j
    rw [hworld, World.registrations_register _ _ _ _ (hc.alive_of_added? hadd)]
    by_cases hji : i = j
    · rw [if_pos hji, if_pos hji.symm, List.count_append, hunused.lists j]
      simp
    · rw [if_neg hji, hunused.lists j]
      exact Nat.zero_le _
  · have hsent : d.state.world.sent? l = some [] := by
      rw [hworld, ← hnone]
      exact hchanges
    have hsame : d.state.world.value? i = some v := by
      rw [hworld, World.value?_register]
      exact hvalue
    exact .settled hsent hsame rfl (not_pending_of_step hc hstep hunused.pending
      fun j hmem => absurd hmem (hunused.not_mem j))

omit [BEq V] in
theorem Observes.perform {c : Config V} {i : Id} {l : ListenerId} {v : V}
    (hobserves : c.Observes i l v) (hreply : c.reply?.isSome = true) (op : Op V) :
    (start c.state op).Observes i l v := by
  refine ⟨hobserves.head, hobserves.lists, ?_⟩
  cases hobserves.delivered with
  | settled hsent hvalue hchain hpending =>
    exact .settled hsent hvalue hchain List.not_mem_nil
  | due hsent hvalue hchain hfocus hpending =>
    obtain ⟨r, hr⟩ := isSome_reply?_iff.1 hreply
    rw [hfocus] at hr
    cases hr

theorem Run.observes {allowed : Op V → Prop} {later before : List (Config V)} {c₀ c : Config V}
    (hrun : Run allowed (later ++ c₀ :: before) c) {i : Id} {l : ListenerId} {v : V}
    (hadd : c₀.added? = some (i, l)) (hempty : c₀.state.world.registrations i = [])
    (hvalue : c₀.state.world.value? i = some v)
    (hchannel : (c₀.state.world.sent? l).isSome = true)
    (honce : ∀ d ∈ later ++ before, ∀ j, d.added? ≠ some (j, l))
    (hkept : ∀ d ∈ later, d.removed? ≠ some (i, l)) :
    i < c.state.world.objects.size ∧ (c.state.world.alive i = true → c.Observes i l v) := by
  -- The observable may have died in between, but then it does not come back.
  induction later generalizing c with
  | nil =>
    cases hrun with
    | step hrun hstep =>
      have hc := hrun.sound
      have hlt := World.lt_size_of_alive (hc.alive_of_added? hadd)
      have hle := (Effect.of_transition (.of_step hstep)).size_objects_le
      refine ⟨Nat.lt_of_lt_of_le hlt hle, fun _ => ?_⟩
      exact (hrun.unused honce).observes hc hadd hempty hvalue hchannel hstep
    | perform hrun hreply hop =>
      obtain ⟨r, hfocus⟩ := isSome_reply?_iff.1 hreply
      rw [added?, hfocus] at hadd
      cases hadd
  | cons e later ih =>
    have honce' : ∀ d ∈ later ++ before, ∀ j, d.added? ≠ some (j, l) :=
      fun d hd => honce d (List.mem_cons_of_mem _ hd)
    have hkept' : ∀ d ∈ later, d.removed? ≠ some (i, l) :=
      fun d hd => hkept d (List.mem_cons_of_mem _ hd)
    cases hrun with
    | step hrun hstep =>
      obtain ⟨hlt, hobserves⟩ := ih hrun honce' hkept'
      have heffect := Effect.of_transition (.of_step hstep)
      refine ⟨Nat.lt_of_lt_of_le hlt heffect.size_objects_le, fun halive => ?_⟩
      exact (hobserves (heffect.alive hlt halive)).step hrun.sound
        (honce e List.mem_cons_self) (hkept e List.mem_cons_self) hstep halive
    | perform hrun hreply hop =>
      obtain ⟨hlt, hobserves⟩ := ih hrun honce' hkept'
      exact ⟨hlt, fun halive => (hobserves halive).perform hreply _⟩

/-- A channel is added to the empty list of an observable, nowhere else and never again, and it is
not removed. As long as the observable lives, and unless a round is about to make its next call, the
changes that were sent lead from the value at that moment to the present value. -/
theorem Run.chain_of_first {allowed : Op V → Prop} {later before : List (Config V)}
    {c₀ c : Config V} (hrun : Run allowed (later ++ c₀ :: before) c) {i : Id} {l : ListenerId}
    {v : V} (hadd : c₀.added? = some (i, l)) (hempty : c₀.state.world.registrations i = [])
    (hvalue : c₀.state.world.value? i = some v)
    (hchannel : (c₀.state.world.sent? l).isSome = true)
    (honce : ∀ d ∈ later ++ before, ∀ j, d.added? ≠ some (j, l))
    (hkept : ∀ d ∈ later, d.removed? ≠ some (i, l)) (halive : c.state.world.alive i = true)
    (hmoment : ¬ c.focus.IsRound) :
    ∃ changes w, c.state.world.sent? l = some changes ∧ c.state.world.value? i = some w ∧
      Chain v changes w := by
  obtain ⟨_, hobserves⟩ := hrun.observes hadd hempty hvalue hchannel honce hkept
  cases (hobserves halive).delivered with
  | settled hsent hsame hchain hpending => exact ⟨_, _, hsent, hsame, hchain⟩
  | due hsent hsame hchain hfocus hpending =>
    rw [hfocus] at hmoment
    exact absurd trivial hmoment

/-- A listener after the channel sets the observable back in the middle of its round. -/
theorem chain_of_first_reentrant : ∃ (past : List (Config Bool)) (c : Config Bool),
    Run (fun _ => True) past c ∧ c.reply?.isSome = true ∧
      c.state.world.sent? 0 = some [⟨false, true⟩, ⟨true, false⟩] ∧
      ∃ changes w, c.state.world.sent? 0 = some changes ∧ c.state.world.value? 0 = some w ∧
        Chain false changes w := by
  have hproperty : Run (fun _ => True) _
      (start {} (.act (.property "p" false (fun v => .stop (.ok v)) none))) := .start trivial
  have hchannel : Run (fun _ => True) _ (start _ (.act (.channel "l" "r"))) :=
    (hproperty.step rfl).perform rfl trivial
  have hlistener : Run (fun _ => True) _ (start _ (.act (.listener "m" fun call : Call Bool =>
      match call.new with
      | true => .perform (.set "p" false) fun _ => .stop (.ok ())
      | false => .stop (.ok ())))) :=
    (hchannel.step rfl).perform rfl trivial
  have hadd : Run (fun _ => True) _ (start _ (.act (.add "p" "l"))) :=
    (hlistener.step rfl).perform rfl trivial
  have hsecond : Run (fun _ => True) _ (start _ (.act (.add "p" "m"))) :=
    (hadd.step rfl).perform rfl trivial
  have hset : Run (fun _ => True) _ (start _ (.set "p" true)) :=
    (hsecond.step rfl).perform rfl trivial
  have hlast : Run (fun _ => True) (trail 30 _ ++ ([_, _, _] ++ _ :: _)) _ := hset.iterate 30
  rw [← List.append_assoc] at hlast
  have hchain := hlast.chain_of_first (i := 0) (l := 0) (v := false) rfl rfl rfl rfl
  refine ⟨_, _, hlast, rfl, rfl, hchain ?_ ?_ rfl (fun h => h)⟩
  · intro d hd j hadd
    have hother := (List.all_eq_true (p := fun e : Config Bool => e.added?.all (·.2 != 0))).1
      (by rfl) d hd
    rw [hadd] at hother
    cases hother
  · intro d hd hremove
    have hnone := (List.all_eq_true (p := fun e : Config Bool => e.removed?.isNone)).1
      (by rfl) d hd
    rw [hremove] at hnone
    cases hnone

end Config

end Observable
