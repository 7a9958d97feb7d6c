import Observable.Proofs.History

/-!
# What waits

A frame that is put on the stack waits there until it is the innermost one. So whatever an operation
or a round leads to happens above its own frames, and they are still there when it ends
(`Config.Transition.waits`). This lets a statement look back from a frame to the moment at which it
was put on the stack, with the frame waiting at every moment in between (`Config.Since`). It also
orders two moments of one run (`Config.Run.after`).
-/

namespace Observable

variable {V : Type}

namespace Stack

/-- The frames that are on a stack from each of its frames downwards, the whole stack first. -/
def tails : {a : Awaits} → Stack V a → List ((b : Awaits) × Stack V b)
  | _, .idle => [⟨_, .idle⟩]
  | _, .script next below => ⟨_, .script next below⟩ :: below.tails
  | _, .setting i below => ⟨_, .setting i below⟩ :: below.tails
  | _, .following i below => ⟨_, .following i below⟩ :: below.tails
  | _, .validating i below => ⟨_, .validating i below⟩ :: below.tails
  | _, .reporting i e below => ⟨_, .reporting i e below⟩ :: below.tails
  | _, .converting i below => ⟨_, .converting i below⟩ :: below.tails
  | _, .wrapping i name convert below => ⟨_, .wrapping i name convert below⟩ :: below.tails
  | _, .listening below => ⟨_, .listening below⟩ :: below.tails
  | _, .round rest observed old new below => ⟨_, .round rest observed old new below⟩ :: below.tails
  | _, .notifying i observed below => ⟨_, .notifying i observed below⟩ :: below.tails
  | _, .updating i old below => ⟨_, .updating i old below⟩ :: below.tails
  | _, .recomputing i below => ⟨_, .recomputing i below⟩ :: below.tails

theorem mem_tails_self {a : Awaits} (k : Stack V a) : ⟨a, k⟩ ∈ k.tails := by
  cases k <;> exact List.mem_cons_self

/-- What is on a stack has no more frames than the stack. -/
theorem length_tails_le {a : Awaits} {k : Stack V a} {x : (b : Awaits) × Stack V b}
    (hx : x ∈ k.tails) : x.2.tails.length ≤ k.tails.length := by
  induction k with
  | idle =>
    obtain rfl := List.mem_singleton.1 hx
    exact Nat.le_refl _
  | _ =>
    rename_i ih
    rcases List.mem_cons.1 hx with rfl | hx
    · exact Nat.le_refl _
    · exact Nat.le_succ_of_le (ih hx)

/-- What is below something on a stack is on the stack. -/
theorem mem_tails_trans {a : Awaits} {k : Stack V a} {x y : (b : Awaits) × Stack V b}
    (hy : y ∈ k.tails) (hx : x ∈ y.2.tails) : x ∈ k.tails := by
  induction k with
  | idle =>
    obtain rfl := List.mem_singleton.1 hy
    exact hx
  | _ =>
    rename_i ih
    rcases List.mem_cons.1 hy with rfl | hy
    · exact hx
    · exact List.mem_cons_of_mem _ (ih hy)

/-- Of two frames on one stack, one is below the other. -/
theorem mem_tails_or {a : Awaits} {k : Stack V a} {x y : (b : Awaits) × Stack V b}
    (hx : x ∈ k.tails) (hy : y ∈ k.tails) : x ∈ y.2.tails ∨ y ∈ x.2.tails := by
  induction k with
  | idle =>
    obtain rfl := List.mem_singleton.1 hx
    exact .inr hy
  | _ =>
    rename_i ih
    rcases List.mem_cons.1 hx with rfl | hx
    · exact .inr hy
    · rcases List.mem_cons.1 hy with rfl | hy
      · exact .inl (List.mem_cons_of_mem _ hx)
      · exact ih hx hy

/-- A frame is not among those below it. -/
theorem setting_not_mem_tails (i : Id) (k : Stack V .reply) : ⟨_, .setting i k⟩ ∉ k.tails := by
  intro hmem
  have hle := length_tails_le hmem
  rw [tails, List.length_cons] at hle
  omega

end Stack

namespace Config

/-- The frames of `k` are on the stack. -/
def Waits (c : Config V) {a : Awaits} (k : Stack V a) : Prop := ⟨a, k⟩ ∈ c.focus.frames.2.tails

/-- The frames of `k` have been on the stack since a moment of the past of which `P` holds. -/
def Since (past : List (Config V)) {a : Awaits} (k : Stack V a) (P : Config V → Prop) : Prop :=
  ∃ later c₀ before, past = later ++ c₀ :: before ∧ P c₀ ∧ ∀ d ∈ later, d.Waits k

theorem Since.of_last {past : List (Config V)} {c : Config V} {a : Awaits} (k : Stack V a)
    {P : Config V → Prop} (hc : P c) : Since (c :: past) k P :=
  ⟨[], c, past, rfl, hc, fun _ hd => by cases hd⟩

theorem Since.cons {past : List (Config V)} {c : Config V} {a : Awaits} {k : Stack V a}
    {P : Config V → Prop} (hsince : Since past k P) (hc : c.Waits k) : Since (c :: past) k P := by
  obtain ⟨later, c₀, before, hpast, hc₀, hlater⟩ := hsince
  refine ⟨c :: later, c₀, before, by rw [hpast]; rfl, hc₀, ?_⟩
  intro d hd
  rcases List.mem_cons.1 hd with rfl | hd
  · exact hc
  · exact hlater d hd

/-- Once the operation that was performed from outside has its reply, nothing waits any more. -/
theorem Waits.eq_idle {c : Config V} {a : Awaits} {k : Stack V a} (hwaits : c.Waits k)
    (hreply : c.reply?.isSome = true) :
    (⟨a, k⟩ : (b : Awaits) × Stack V b) = ⟨_, .idle⟩ := by
  obtain ⟨r, hfocus⟩ := isSome_reply?_iff.1 hreply
  unfold Waits at hwaits
  rw [hfocus] at hwaits
  exact List.mem_singleton.1 hwaits

theorem waits_fail {s : State V} {e : Error} {k : Stack V .update} {a : Awaits} {l : Stack V a}
    (hl : ⟨a, l⟩ ∈ k.tails) : (s.fail e k).Waits l :=
  State.fail_cases (P := fun d => d.Waits l) hl fun _ _ _ _ => List.mem_cons_of_mem _ hl

variable [BEq V]

/-- What waits goes on waiting, unless it is innermost. -/
theorem Transition.waits {c d : Config V} (hmove : c.Transition d) {a : Awaits} {k : Stack V a}
    (hk : c.Waits k) : c.focus.frames = ⟨a, k⟩ ∨ d.Waits k := by
  cases hmove with
  -- The same frames wait, or more of them.
  | act | setUnknown | setBound | notifyUnknown | wrapUnknown | emit => exact .inr hk
  | wrap | perform => exact .inr (List.mem_cons_of_mem _ hk)
  | set => exact .inr (List.mem_cons_of_mem _ (List.mem_cons_of_mem _ hk))
  | notify => exact .inr (List.mem_cons_of_mem _ (List.mem_cons_of_mem _ hk))
  -- The innermost frame goes, and others may come in its place.
  | resume | gone | unchanged | reported | announced | setDone | followed | wrapped
  | convertedGone | recomputed | roundDone | listened | listenFailed | callFailed | notified =>
    exact (List.mem_cons.1 hk).imp Eq.symm id
  | called => exact .inr hk
  | callGone | send | boundGone | derivedGone =>
    exact (List.mem_cons.1 hk).imp Eq.symm (List.mem_cons_of_mem _)
  | listen | convert =>
    exact (List.mem_cons.1 hk).imp Eq.symm
      fun h => List.mem_cons_of_mem _ (List.mem_cons_of_mem _ h)
  | deliver =>
    exact (List.mem_cons.1 hk).imp Eq.symm
      fun h => List.mem_cons_of_mem _ (List.mem_cons_of_mem _ (List.mem_cons_of_mem _ h))
  | write | converted =>
    exact (List.mem_cons.1 hk).imp Eq.symm
      fun h => List.mem_cons_of_mem _ (List.mem_cons_of_mem _ h)
  | reject => exact (List.mem_cons.1 hk).imp Eq.symm waits_fail
  | announceFailed => exact (List.mem_cons.1 hk).imp Eq.symm waits_fail

/-- An operation that begins leaves everything waiting that waited for it. -/
theorem Transition.waits_of_operate {c d : Config V} (hmove : c.Transition d) {op : Op V}
    {k : Stack V .reply} (hfocus : c.focus = .operate op k) {a : Awaits} {l : Stack V a}
    (hl : ⟨a, l⟩ ∈ k.tails) : d.Waits l := by
  cases hmove with
  | act | setUnknown | setBound | notifyUnknown | wrapUnknown =>
    cases hfocus
    exact hl
  | wrap =>
    cases hfocus
    exact List.mem_cons_of_mem _ hl
  | set | notify =>
    cases hfocus
    exact List.mem_cons_of_mem _ (List.mem_cons_of_mem _ hl)
  | _ => cases hfocus

/-- The frames that a step from `c` to `d` puts on the stack, and what makes it do so. -/
inductive Pushes (c d : Config V) : (a : Awaits) × Stack V a → Prop
  | setting {name : String} {v : V} {i : Id} {k : Stack V .reply}
      (hfocus : c.focus = .operate (.set name v) k)
      (hname : c.state.world.find? name Handle.property? = some i) : Pushes c d ⟨_, .setting i k⟩
  | wrapping {name as : String} {convert : V → Script V .converter} {i : Id} {k : Stack V .reply}
      (hfocus : c.focus = .operate (.wrap name as convert) k)
      (hname : c.state.world.find? name Handle.observable? = some i) :
    Pushes c d ⟨_, .wrapping i as convert k⟩
  | notifying {name observed : String} {old new : V} {i j : Id} {k : Stack V .reply}
      (hfocus : c.focus = .operate (.notify name observed old new) k)
      (hname : c.state.world.find? name Handle.set? = some i)
      (hobserved : c.state.world.find? observed Handle.observable? = some j) :
    Pushes c d ⟨_, .notifying i j k⟩
  | script {ρ : Role} {op : Op V} {next : Reply V → Script V ρ} {k : Stack V (.answer ρ)}
      (hfocus : c.focus = .run (.perform op next) k) : Pushes c d ⟨_, .script next k⟩
  | validating {p : Property V} {v : V} {j : Id} {k : Stack V .update}
      (hp : d.state.world.property? k.updated = some p)
      (hfocus : d.focus = .run (p.validate v) (.validating j k)) : Pushes c d ⟨_, .validating j k⟩
  | reporting (i : Id) (e : Error) (k : Stack V .update) : Pushes c d ⟨_, .reporting i e k⟩
  | updating (old : V) (k : Stack V .update) : Pushes c d ⟨_, .updating k.updated old k⟩
  | recomputing {v : V} {i : Id} {k : Stack V .call}
      (hfocus : c.focus = .run (@Script.stop V .converter v) (.converting i k)) :
    Pushes c d ⟨_, .recomputing i k⟩
  | round {rest : List Registration} {observed : Id} {old new : V} {k : Stack V .round}
      (hfocus : d.focus = .round rest observed old new k) :
    Pushes c d ⟨_, .round rest observed old new k⟩
  | calling {r : Registration} {rest : List Registration} {observed : Id} {old new : V}
      {k : Stack V .round} (hfocus : c.focus = .round (r :: rest) observed old new k) :
    Pushes c d ⟨_, .round rest observed old new k⟩
  | listening (k : Stack V .call) : Pushes c d ⟨_, .listening k⟩
  | following {i : Id} {rest : List Registration} {observed : Id} {old new : V} {k : Stack V .round}
      (hfocus : c.focus = .round (.bound i :: rest) observed old new k) :
    Pushes c d ⟨_, .following i (.round rest observed old new k)⟩
  | converting {i : Id} {rest : List Registration} {observed : Id} {old new : V}
      {k : Stack V .round} (hfocus : c.focus = .round (.derived i :: rest) observed old new k) :
    Pushes c d ⟨_, .converting i (.round rest observed old new k)⟩

omit [BEq V] in
theorem pushes_fail {s : State V} {e : Error} {k : Stack V .update} (c : Config V)
    {x : (a : Awaits) × Stack V a} (hx : x ∈ (s.fail e k).focus.frames.2.tails) :
    x ∈ k.tails ∨ c.Pushes (s.fail e k) x := by
  revert hx
  refine State.fail_cases (P := fun d => x ∈ d.focus.frames.2.tails → x ∈ k.tails ∨ c.Pushes d x)
    .inl fun p report _ _ hx => ?_
  rcases List.mem_cons.1 hx with rfl | hx
  · exact .inr (.reporting ..)
  · exact .inl hx

/-- What waits after a step has waited before, or the step has put it there. -/
theorem Transition.pushes {c d : Config V} (hmove : c.Transition d) {x : (a : Awaits) × Stack V a}
    (hx : x ∈ d.focus.frames.2.tails) : x ∈ c.focus.frames.2.tails ∨ c.Pushes d x := by
  cases hmove with
  -- Operations and callbacks begin and go on.
  | act | setUnknown | setBound | notifyUnknown | wrapUnknown | emit | called => exact .inl hx
  | set v hname hp hfree =>
    rcases List.mem_cons.1 hx with rfl | hx
    · exact .inr (.validating hp rfl)
    · rcases List.mem_cons.1 hx with rfl | hx
      · exact .inr (.setting rfl hname)
      · exact .inl hx
  | notify old new hname hobserved =>
    rcases List.mem_cons.1 hx with rfl | hx
    · exact .inr (.round rfl)
    · rcases List.mem_cons.1 hx with rfl | hx
      · exact .inr (.notifying rfl hname hobserved)
      · exact .inl hx
  | wrap as convert hname hv =>
    rcases List.mem_cons.1 hx with rfl | hx
    · exact .inr (.wrapping rfl hname)
    · exact .inl hx
  | perform s op next k =>
    rcases List.mem_cons.1 hx with rfl | hx
    · exact .inr (.script rfl)
    · exact .inl hx
  -- A value is stored and announced.
  | write =>
    rcases List.mem_cons.1 hx with rfl | hx
    · exact .inr (.round rfl)
    · rcases List.mem_cons.1 hx with rfl | hx
      · exact .inr (.updating ..)
      · exact .inl (List.mem_cons_of_mem _ hx)
  | converted =>
    rcases List.mem_cons.1 hx with rfl | hx
    · exact .inr (.round rfl)
    · rcases List.mem_cons.1 hx with rfl | hx
      · exact .inr (.recomputing rfl)
      · exact .inl (List.mem_cons_of_mem _ hx)
  | reject | announceFailed => exact (pushes_fail _ hx).imp (List.mem_cons_of_mem _) id
  -- A registration is called.
  | callGone | send | boundGone | derivedGone =>
    rcases List.mem_cons.1 hx with rfl | hx
    · exact .inr (.calling rfl)
    · exact .inl (List.mem_cons_of_mem _ hx)
  | listen =>
    rcases List.mem_cons.1 hx with rfl | hx
    · exact .inr (.listening _)
    · rcases List.mem_cons.1 hx with rfl | hx
      · exact .inr (.calling rfl)
      · exact .inl (List.mem_cons_of_mem _ hx)
  | convert =>
    rcases List.mem_cons.1 hx with rfl | hx
    · exact .inr (.converting rfl)
    · rcases List.mem_cons.1 hx with rfl | hx
      · exact .inr (.calling rfl)
      · exact .inl (List.mem_cons_of_mem _ hx)
  | deliver rest observed old new k hp =>
    rcases List.mem_cons.1 hx with rfl | hx
    · exact .inr (.validating hp rfl)
    · rcases List.mem_cons.1 hx with rfl | hx
      · exact .inr (.following rfl)
      · rcases List.mem_cons.1 hx with rfl | hx
        · exact .inr (.calling rfl)
        · exact .inl (List.mem_cons_of_mem _ hx)
  -- The innermost frame goes.
  | resume | gone | unchanged | reported | announced | setDone | followed | wrapped | convertedGone
  | recomputed | roundDone | listened | listenFailed | callFailed | notified =>
    exact .inl (List.mem_cons_of_mem _ hx)

/-- After a moment at which a step is taken comes what the step leads to. -/
theorem Run.eq_or_mem_of_step {allowed : Op V → Prop} {later before : List (Config V)}
    {c₀ c d : Config V} (hrun : Run allowed (later ++ c₀ :: before) c) (hstep : c₀.step = some d) :
    c = d ∨ d ∈ later := by
  induction later generalizing c with
  | nil =>
    left
    cases hrun with
    | step _ hnext =>
      rw [hstep] at hnext
      exact (Option.some.inj hnext).symm
    | perform _ hreply _ =>
      rw [(step_eq_none_iff c₀).2 hreply] at hstep
      cases hstep
  | cons e later ih =>
    right
    have hbefore : Run allowed (later ++ c₀ :: before) e := by
      cases hrun with
      | step hrun _ => exact hrun
      | perform hrun _ _ => exact hrun
    rcases ih hbefore with rfl | hmem
    · exact List.mem_cons_self
    · exact List.mem_cons_of_mem _ hmem

/-- What holds once a step has been taken, and is kept by every move, holds from then on. -/
theorem Run.after {allowed : Op V → Prop} {P : List (Config V) → Config V → Prop}
    {later before : List (Config V)} {c₀ d₀ c : Config V}
    (hrun : Run allowed (later ++ c₀ :: before) c) (hstep : c₀.step = some d₀) (hfirst : P [] d₀)
    (hnext : ∀ past c d, Run allowed (past ++ c₀ :: before) c → P past c → c.step = some d →
      P (c :: past) d)
    (hperform : ∀ past c op, Run allowed (past ++ c₀ :: before) c → P past c →
      c.reply?.isSome = true → P (c :: past) (Config.start c.state op)) : P later c := by
  induction later generalizing c with
  | nil =>
    have hlast : Run allowed ([] ++ c₀ :: before) c := hrun
    rcases hlast.eq_or_mem_of_step hstep with rfl | hmem
    · exact hfirst
    · cases hmem
  | cons d later ih =>
    cases hrun with
    | step hrun hnextstep => exact hnext _ _ _ hrun (ih hrun) hnextstep
    | perform hrun hreply hop => exact hperform _ _ _ hrun (ih (c := d) hrun) hreply

end Config

end Observable
