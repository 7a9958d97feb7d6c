import Observable.Config

/-!
# Runs

A run begins with an operation that is performed from outside in an empty world. It takes one step
after the other, and whenever that operation has its reply, another one may be performed in the
state that was left. Whatever callbacks do happens inside such an operation, so every moment of a
program that uses the library is a configuration of a run.

Main statements: taking a bounded number of steps is a part of a run (`Config.Reachable.iterate`),
so is an operation that needs no more steps than its bound (`Config.Reachable.perform?`), and a
greater bound changes no reply (`State.perform?_mono`).
-/

namespace Observable

variable {V : Type} [BEq V]

namespace Config

/-! ## Moves -/

/-- One move of a run. -/
inductive Next : Config V → Config V → Prop
  | step {c d : Config V} (hstep : c.step = some d) : Next c d
  /-- Once nothing is in progress, an operation is performed from outside. -/
  | perform {c : Config V} (op : Op V) (hreply : c.reply?.isSome = true) :
    Next c (start c.state op)

/-- Some run comes to the configuration. -/
inductive Reachable : Config V → Prop
  | start (op : Op V) : Reachable (start {} op)
  | next {c d : Config V} (hc : Reachable c) (hnext : Next c d) : Reachable d

/-! ## Bounded runs -/

/-- The configuration after at most the given number of steps. -/
def iterate : Nat → Config V → Config V
  | 0, c => c
  | n + 1, c =>
    match c.step with
    | none => c
    | some d => iterate n d

/-- A run that has stopped goes no further. -/
theorem iterate_of_step_eq_none {c : Config V} (hstop : c.step = none) (n : Nat) :
    c.iterate n = c := by
  cases n <;> simp [iterate, hstop]

/-- Steps can be taken in two parts. -/
theorem iterate_add (c : Config V) (m n : Nat) : c.iterate (m + n) = (c.iterate m).iterate n := by
  induction m generalizing c with
  | zero => simp [iterate]
  | succ m ih =>
    rw [Nat.succ_add]
    cases hstep : c.step with
    | none => simp [iterate, hstep, iterate_of_step_eq_none hstep]
    | some d => simp [iterate, hstep, ih]

/-- What steps lead to from where a run comes to, a run comes to as well. -/
theorem Reachable.iterate {c : Config V} (hc : Reachable c) (n : Nat) :
    Reachable (c.iterate n) := by
  induction n generalizing c with
  | zero => exact hc
  | succ n ih =>
    cases hstep : c.step with
    | none =>
      rw [iterate_of_step_eq_none hstep]
      exact hc
    | some d =>
      simp only [Config.iterate, hstep]
      exact ih (hc.next (.step hstep))

/-- Some steps, without a further operation from outside, lead from one configuration to another. -/
def Leads (c d : Config V) : Prop := ∃ n, c.iterate n = d

theorem Leads.refl (c : Config V) : Leads c c := ⟨0, rfl⟩

theorem Leads.trans {c d e : Config V} (hfirst : Leads c d) (hsecond : Leads d e) : Leads c e := by
  obtain ⟨m, hm⟩ := hfirst
  obtain ⟨n, hn⟩ := hsecond
  exact ⟨m + n, by rw [iterate_add, hm, hn]⟩

theorem Leads.of_step {c d : Config V} (hstep : c.step = some d) : Leads c d :=
  ⟨1, by simp [iterate, hstep]⟩

end Config

namespace State

/-- Performs an operation from outside: the state after it and its reply, unless it needs more than
`bound` steps. -/
def perform? (bound : Nat) (s : State V) (op : Op V) : Option (State V × Reply V) :=
  let c := (Config.start s op).iterate bound
  c.reply?.map fun r => (c.state, r)

/-- Steps that lead to a reply are what `perform?` takes, given a great enough bound. -/
theorem perform?_of_leads {s t : State V} {op : Op V} {r : Reply V}
    (hleads : (Config.start s op).Leads ⟨t, .reply r .idle⟩) :
    ∃ n, s.perform? n op = some (t, r) := by
  obtain ⟨n, hn⟩ := hleads
  refine ⟨n, ?_⟩
  unfold perform?
  rw [hn]
  rfl

theorem perform?_mono {m n : Nat} (hle : m ≤ n) {s t : State V} {op : Op V} {r : Reply V}
    (hdone : s.perform? m op = some (t, r)) : s.perform? n op = some (t, r) := by
  obtain ⟨k, rfl⟩ := Nat.exists_eq_add_of_le hle
  unfold perform? at hdone ⊢
  have hreply : ((Config.start s op).iterate m).reply?.isSome = true := by
    cases h : ((Config.start s op).iterate m).reply? with
    | none => simp [h] at hdone
    | some r => rfl
  rw [Config.iterate_add,
    Config.iterate_of_step_eq_none ((Config.step_eq_none_iff _).2 hreply)]
  exact hdone

end State

/-- What `perform?` returns is where a run comes to. -/
theorem Config.Reachable.perform? {c : Config V} (hc : c.Reachable)
    (hreply : c.reply?.isSome = true) {n : Nat} {t : State V} {op : Op V} {r : Reply V}
    (hdone : c.state.perform? n op = some (t, r)) : Config.Reachable ⟨t, .reply r .idle⟩ := by
  obtain ⟨r', hlast, heq⟩ := Option.map_eq_some_iff.1 hdone
  cases heq
  rw [← Config.reply?_eq_some_iff.1 hlast]
  exact (hc.next (.perform op hreply)).iterate n

end Observable
