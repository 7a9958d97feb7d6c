import Observable.Run

/-!
# Callbacks that perform no operation

A passive callback only emits events and answers. What it does is then a value rather than a run,
`Script.outcome?`, and running it step by step comes to the same answer with the same events
(`Script.leads_of_outcome?`).
-/

namespace Observable

variable {V : Type}

/-- The events and the answer of a script, if it performs no operation. -/
def Script.outcome? {ρ : Role} : Script V ρ → Option (List (Event V) × Answer V ρ)
  | .stop a => some ([], a)
  | .emit e rest => rest.outcome?.map fun x => (e :: x.1, x.2)
  | .perform _ _ => none

/-- A script that performs no operation. -/
def Script.IsPassive {ρ : Role} (script : Script V ρ) : Prop := script.outcome?.isSome = true

/-- A property whose validator and reporter perform no operation. -/
structure Property.IsPassive (p : Property V) : Prop where
  validate : ∀ v, (p.validate v).IsPassive
  report : ∀ report ∈ p.report, ∀ e, (report e).IsPassive

/-- A binding whose converter performs no operation. -/
def Binding.IsPassive (b : Binding V) : Prop := ∀ v, (b.convert v).IsPassive

/-- A listener that performs no operation and does not count its calls. -/
def Listener.IsPassive : Listener V → Prop
  | .callback _ body =>
    (∀ call, (body call).IsPassive) ∧
      ∀ (call : Call V) (n : Nat), body { call with earlier := n } = body call
  | .channel _ _ => True

/-- A world in which every callback is passive. -/
structure World.IsPassive (w : World V) : Prop where
  property : ∀ i p, w.property? i = some p → p.IsPassive
  binding : ∀ i b, w.binding? i = some b → b.IsPassive
  listener : ∀ l x, w.listeners.get? l = some x → x.IsPassive

theorem Script.outcome?_emit {ρ : Role} (e : Event V) (rest : Script V ρ) :
    (Script.emit e rest).outcome? = rest.outcome?.map fun x => (e :: x.1, x.2) := by
  rw [Script.outcome?]

theorem Script.leads_of_outcome? [BEq V] {ρ : Role} {script : Script V ρ}
    {events : List (Event V)} {a : Answer V ρ} (houtcome : script.outcome? = some (events, a))
    (s : State V) (below : Stack V (.answer ρ)) :
    Config.Leads ⟨s, .run script below⟩
      ⟨{ s with log := s.log ++ events }, .run (.stop a) below⟩ := by
  induction events generalizing script s with
  | nil =>
    cases script with
    | stop a' =>
      cases houtcome
      simpa using Config.Leads.refl _
    | emit e rest =>
      rw [outcome?_emit] at houtcome
      obtain ⟨x, _, hx⟩ := Option.map_eq_some_iff.1 houtcome
      cases hx
    | perform op next => cases houtcome
  | cons e events ih =>
    cases script with
    | stop a' => cases houtcome
    | emit e' rest =>
      rw [outcome?_emit] at houtcome
      obtain ⟨⟨es, a'⟩, hrest, hx⟩ := Option.map_eq_some_iff.1 houtcome
      cases hx
      have hstep : Config.step ⟨s, .run (.emit e rest) below⟩
          = some ⟨s.emit e, .run rest below⟩ := rfl
      have htail := ih hrest (s.emit e)
      simp only [State.emit, List.append_assoc, List.singleton_append] at htail
      exact (Config.Leads.of_step hstep).trans htail
    | perform op next => cases houtcome

end Observable
