import Observable.Operation
import Observable.Value.Transform

/-!
# Written callbacks

Callbacks and operations in a form that can be written down: a validator or converter is a list of
`Step`s, a listener's reaction a list of `Command`s, and a command may define callbacks in turn. A
command's values may refer to the change that a listener was told of (`Operand`). Where they are
literals, their kind is the one that the command gives, or that of the value which a name of the
command has when it is performed (`Command.model?`). What recipes mean is said elsewhere, by turning
them into scripts.
-/

namespace Observable.Recipe

/-- Which value of a change an operand refers to. -/
inductive Reference where
  | new
  | old
  | current
  deriving DecidableEq, Repr

/-- A value in a command: written out, or a value of the change at hand after some transforms. -/
inductive Operand where
  | literal (l : Literal)
  | reference (r : Reference) (transforms : List Transform)

/-- The values that references refer to. -/
structure Scope where
  new : Value
  old : Value
  current : Value

/-- The scope of a step, where only the value that reached it can be referred to. -/
def Scope.of (v : Value) : Scope := ⟨v, v, v⟩

/-- The scope outside all callbacks, where nothing is referred to. -/
def Scope.outside : Scope := .of Kind.bool.initial

def Scope.get (s : Scope) : Reference → Value
  | .new => s.new
  | .old => s.old
  | .current => s.current

/-- The value of an operand, where a literal is of the given kind. -/
def Operand.eval (s : Scope) (k : Kind) : Operand → Value
  | .literal l => l.value k
  | .reference r transforms => Transform.applyAll (s.get r) transforms

mutual

/-- A step of a validator or a converter. -/
inductive Step where
  | apply (t : Transform)
  /-- Fails with a message if the value passes a test. -/
  | reject (p : Predicate) (message : String)
  /-- Takes further steps if the value passes a test. -/
  | when (p : Predicate) (steps : List Step)
  | note (text : String)
  /-- Performs commands; a propagating step fails with the first failure of one. -/
  | perform (commands : List Command) (propagates : Bool)

/-- A command: an operation in writing. -/
inductive Command where
  /-- A missing `init` is the initial value of the kind. -/
  | property (name : String) (kind : Kind) (init : Option Operand) (validation : Validation)
      (reporting : Reporting)
  | listenerSet (name : String)
  | listener (name : String) (reaction : Reaction)
  | channel (name receiver : String)
  | view (name as : String)
  | copy (name as : String)
  | weak (name as : String)
  | drop (name : String)
  | get (name : String)
  | set (name : String) (value : Operand)
  | bind (name target : String)
  | unbind (name : String)
  | isBound (name : String)
  | add (name listener : String)
  | remove (name listener : String)
  | contains (name listener : String)
  | count (name : String)
  | isEmpty (name : String)
  | id (name : String)
  | sameId (name other : String)
  | sameListener (name other : String)
  | notify (name observed : String) (old new : Operand)
  | wrap (name as : String) (steps : List Step)
  | drain (receiver : String) (asText : Bool)
  | display (name : String)
  | describe (name : String)
  | compare (kind : Kind) (a b : Change Literal)
  | initial (kind : Kind)

/-- How a property validates. -/
inductive Validation where
  /-- Accepts every value. -/
  | any
  /-- Never fails. -/
  | adjusting (steps : List Step)
  | fallible (steps : List Step)

/-- To whom a property reports failed updates. -/
inductive Reporting where
  | nobody
  /-- Records failures only. -/
  | recorder
  /-- Says its name, and then performs commands, whose failures are ignored. -/
  | named (name : String) (commands : List Command)

/-- What a listener does when it is called, once it has said its name. -/
inductive Reaction where
  /-- At most `limit` calls perform the commands. A propagating listener fails with the first
  failure of a command; after the commands it fails with a message if the new value passes a test. A
  listener that is not fallible never fails. -/
  | mk (limit : Option Nat) (commands : List Command) (propagates fallible : Bool)
      (failure : Option (Predicate × String))

end

/-- The name whose value says of what kind the literals of a command are. -/
def Command.model? : Command → Option String
  | .set name _ => some name
  | .notify _ observed _ _ => some observed
  | _ => none

/-- The word for a command in the events of callbacks. -/
def Command.word : Command → String
  | .property .. => "property"
  | .listenerSet .. => "set_new"
  | .listener .. => "listener"
  | .channel .. => "channel"
  | .view .. => "view"
  | .copy .. => "clone"
  | .weak .. => "weak"
  | .drop .. => "drop"
  | .get .. => "get"
  | .set .. => "set"
  | .bind .. => "bind"
  | .unbind .. => "unbind"
  | .isBound .. => "is_bound"
  | .add .. => "add"
  | .remove .. => "remove"
  | .contains .. => "contains"
  | .count .. => "len"
  | .isEmpty .. => "is_empty"
  | .id .. => "id"
  | .sameId .. => "same_id"
  | .sameListener .. => "listener_eq"
  | .notify .. => "notify"
  | .wrap .. => "wrap"
  | .drain .. => "drain"
  | .display .. => "display"
  | .describe .. => "debug"
  | .compare .. => "change_eq"
  | .initial .. => "initial_value"

end Observable.Recipe
