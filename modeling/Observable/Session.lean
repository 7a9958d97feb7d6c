import Observable.Recipe.Script
import Observable.Run

/-!
# Sessions

A session performs operations from outside, one after the other, each in the state that the one
before it left. Every operation yields a report: its reply, the events during it, and how the
watched names look afterwards.

Operations need not end, so a session is given a bound on the steps of each.
-/

namespace Observable

/-! ## Reports -/

/-- How an object looks to someone who watches its name. -/
structure Snapshot (V : Type) where
  value : Option V
  bound : Option Bool
  listeners : Nat

/-- The snapshot behind a name; none for names that denote no object that they keep alive. -/
def World.snapshot? {V : Type} (w : World V) (name : String) : Option (Snapshot V) :=
  (w.find? name Handle.held?).bind fun i =>
    (w.object? i).map fun o =>
      { value := o.body.value?
        bound := o.body.property?.map (·.source.isSome)
        listeners := o.registrations.length }

/-- What is told of one operation. -/
structure Report (V : Type) where
  reply : Reply V
  events : List (Event V)
  snapshots : List (Option (Snapshot V))

/-- Whether an event is one of the library's own announcements. -/
def Event.isTrace {V : Type} : Event V → Bool
  | .trace _ => true
  | _ => false

/-- A session: what is told of it, and the bound on the steps of an operation. -/
structure Session where
  watched : List String := []
  traced : Bool := false
  bound : Nat

namespace Session

/-- The report on an operation that led from one state to another. -/
def report {V : Type} (session : Session) (before after : State V) (r : Reply V) : Report V :=
  let events := after.log.drop before.log.length
  { reply := r
    events := if session.traced then events else events.filter (!·.isTrace)
    snapshots := session.watched.map after.world.snapshot? }

/-- The kind of the literals of a command that is given from outside. -/
def literalKind (w : World Value) (c : Recipe.Command) : Kind :=
  match c.model? with
  | none => .bool
  | some name => Recipe.seenKind (w.act [] (.get name)).reply

/-- Performs commands, unless one needs too many steps. -/
def run? (session : Session) (s : State Value) :
    List Recipe.Command → Option (List (Report Value))
  | [] => some []
  | c :: commands => do
    let (t, r) ← s.perform? session.bound (c.op .outside (literalKind s.world c))
    let reports ← session.run? t commands
    return session.report s t r :: reports

end Session

end Observable
