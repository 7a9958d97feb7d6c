import Observable.Effect

/-!
# What is waiting

While a callback runs, the operations and updates that led to it wait. A `Stack` lists them,
innermost first. Its index is what the innermost of them waits for, so a callback's answer can only
reach the frame that called it, and every stack ends with the operation that was performed from
outside.

A round over a listener set appears as two frames: the round itself, with the registrations that it
has still to call, and below it the owner for whom it runs (`Stack.owner`).
-/

namespace Observable

/-- What the innermost waiting frame waits for. -/
inductive Awaits where
  /-- The reply to an operation. -/
  | reply
  /-- The answer of a callback. -/
  | answer (ρ : Role)
  /-- How the call of one registration ended. -/
  | call
  /-- How a round ended. -/
  | round
  /-- How the update of a property ended: the value before it, or a failure. -/
  | update

/-- The frames that wait, innermost first. -/
inductive Stack (V : Type) : Awaits → Type
  /-- Nothing waits: the operation was performed from outside. -/
  | idle : Stack V .reply
  /-- A callback goes on with the reply to the operation it performed. -/
  | script {ρ : Role} (next : Reply V → Script V ρ) (below : Stack V (.answer ρ)) : Stack V .reply
  /-- An operation sets a property. -/
  | setting (property : Id) (below : Stack V .reply) : Stack V .update
  /-- A bound property receives a change of its source. -/
  | following (property : Id) (below : Stack V .call) : Stack V .update
  /-- A property's validator runs. -/
  | validating (property : Id) (below : Stack V .update) : Stack V (.answer .validator)
  /-- A property's reporter runs. -/
  | reporting (property : Id) (error : Error) (below : Stack V .update) :
      Stack V (.answer .reporter)
  /-- A binding's converter runs for a change of its source. -/
  | converting (binding : Id) (below : Stack V .call) : Stack V (.answer .converter)
  /-- The converter of a binding to be made runs for the present value of its source. -/
  | wrapping (source : Id) (name : String) (convert : V → Script V .converter)
      (below : Stack V .reply) : Stack V (.answer .converter)
  /-- A listener's callback runs. -/
  | listening (below : Stack V .call) : Stack V (.answer .listener)
  /-- A round has still to call the registrations in `rest`. -/
  | round (rest : List Registration) (observed : Id) (old new : V) (below : Stack V .round) :
      Stack V .call
  /-- An operation notifies a listener set that belongs to no observable. -/
  | notifying (set observed : Id) (below : Stack V .reply) : Stack V .round
  /-- A property has stored a value in place of `old` and announces it. -/
  | updating (property : Id) (old : V) (below : Stack V .update) : Stack V .round
  /-- A binding has stored a converted value and announces it. -/
  | recomputing (binding : Id) (below : Stack V .call) : Stack V .round

namespace Stack

variable {V : Type}

/-- The objects that the frames hold: those that an operation looked up by name, and those that a
change is being delivered to. -/
def holds : {a : Awaits} → Stack V a → List Id
  | _, .idle => []
  | _, .script _ below => below.holds
  | _, .setting i below => i :: below.holds
  | _, .following i below => i :: below.holds
  | _, .validating _ below => below.holds
  | _, .reporting _ _ below => below.holds
  | _, .converting i below => i :: below.holds
  | _, .wrapping i _ _ below => i :: below.holds
  | _, .listening below => below.holds
  | _, .round _ _ _ _ below => below.holds
  | _, .notifying set observed below => set :: observed :: below.holds
  | _, .updating _ _ below => below.holds
  | _, .recomputing i below => i :: below.holds

/-- Whose listeners the innermost round notifies. -/
def owner : Stack V .round → Id
  | .notifying set _ _ => set
  | .updating i _ _ => i
  | .recomputing i _ => i

/-- The property whose update the innermost frame waits for. -/
def updated : Stack V .update → Id
  | .setting i _ => i
  | .following i _ => i

theorem updated_mem_holds (k : Stack V .update) : k.updated ∈ k.holds := by
  cases k <;> simp [updated, holds]

end Stack

end Observable
