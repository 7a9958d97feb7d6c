/-!
# Failures of operations

An operation on an observable fails either because it is used out of turn (a property bound to
itself, a second `bind`, a write to a bound property, …) or because a callback that ran inside it
failed. A callback fails with a message of its own or passes on the failure of an operation that it
performed; either way the failure is wrapped once, with the stage it came from.

The module supplies the wording of every failure (`Error.message`), the chain of failures
underneath one (`Error.chain`), and whether a failure is one of the lifecycle
(`Error.isLifecycle`).
-/

namespace Observable

/-- The callbacks whose failure an operation returns. -/
inductive Stage where
  | validation
  | listener
  deriving DecidableEq, Repr

/-- What a stage says before the text of the failure it wraps. -/
def Stage.heading : Stage → String
  | .validation => "validation failed: "
  | .listener => "change listener failed: "

/-- A failure of an operation. -/
inductive Error where
  /-- A property was to be bound to itself. -/
  | selfBinding
  /-- A listener was to be removed that is not registered. -/
  | missingListener
  /-- A bound property was to be bound again. -/
  | alreadyBound
  /-- A free property was to be released. -/
  | notBound
  /-- A bound property was to be written. -/
  | boundWrite
  /-- A callback failed with a message of its own. -/
  | failed (stage : Stage) (text : String)
  /-- A callback passed on the failure of an operation it performed. -/
  | relayed (stage : Stage) (inner : Error)
  deriving DecidableEq, Repr

/-- What a failing callback answers, before the stage it ran in is known. -/
inductive Cause where
  | text (message : String)
  | error (inner : Error)
  deriving DecidableEq, Repr

namespace Cause

/-- The failure that an operation returns when a callback of the given stage fails. -/
def during (stage : Stage) : Cause → Error
  | .text message => .failed stage message
  | .error inner => .relayed stage inner

end Cause

namespace Error

/-- The text of a failure: the headings of its stages, outermost first, then the innermost text. -/
def message : Error → String
  | .selfBinding => "invalid argument: a property cannot be bound to itself"
  | .missingListener => "the listener is not registered with this observable"
  | .alreadyBound => "the property is already bound to a value"
  | .notBound => "the property is not bound to a value"
  | .boundWrite => "a bound property's value may not be set explicitly"
  | .failed stage text => stage.heading ++ text
  | .relayed stage inner => stage.heading ++ inner.message

/-- The texts of the failures underneath, outermost first. -/
def chain : Error → List String
  | .failed _ text => [text]
  | .relayed _ inner => inner.message :: inner.chain
  | _ => []

/-- A property was bound or released out of turn. -/
def isLifecycle : Error → Bool
  | .alreadyBound | .notBound => true
  | _ => false

end Error

end Observable
