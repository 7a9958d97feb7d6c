import Observable.Operation
import Observable.Recipe.Basic

/-!
# What recipes mean

Steps become the script of a callback in continuation-passing form: `Step.script fail s v k` runs a
step on a value and goes on with `k`, or with `fail` where the step fails. Each command becomes an
operation, followed by the event that tells of its end. A command whose literals take their kind
from a name looks at the value of that name first; the look leaves no trace.
-/

namespace Observable.Recipe

/-- The kind that a look at a value tells. -/
def seenKind : Reply Value → Kind
  | .done (.value v) => v.kind
  | _ => .bool

/-- Goes on with the kind of the literals of a command. A name that has no value makes the command
fail whatever its literals are. -/
def Command.withKind {ρ : Role} (c : Command) (k : Kind → Script Value ρ) : Script Value ρ :=
  match c.model? with
  | none => k .bool
  | some name => .perform (.act (.get name)) fun r => k (seenKind r)

mutual

/-- A step on a value: `k` goes on with the value after the step, `fail` takes the cause of a
failure and the value at that moment. -/
def Step.script {ρ : Role} (fail : Cause → Value → Script Value ρ) :
    Step → Value → (Value → Script Value ρ) → Script Value ρ
  | .apply t, v, k => k (t.apply v)
  | .reject p message, v, k => if p.holds v then fail (.text message) v else k v
  | .when p steps, v, k => if p.holds v then Steps.script fail steps v k else k v
  | .note text, v, k => .emit (.noted text v) (k v)
  | .perform commands propagates, v, k =>
    Commands.script (.of v) (if propagates then some fun e => fail (.error e) v else none)
      commands (k v)

/-- Steps one after the other. -/
def Steps.script {ρ : Role} (fail : Cause → Value → Script Value ρ) :
    List Step → Value → (Value → Script Value ρ) → Script Value ρ
  | [], v, k => k v
  | s :: steps, v, k => Step.script fail s v fun v => Steps.script fail steps v k

/-- The operation that a command stands for, where `literals` is the kind of literals that the
command does not give a kind itself. -/
def Command.op (scope : Scope) (literals : Kind) : Command → Op Value
  | .property name kind init validation reporting =>
    .act (.property name ((init.map (·.eval scope kind)).getD kind.initial)
      (Validation.script validation) (Reporting.script reporting))
  | .listenerSet name => .act (.listenerSet name)
  | .listener name reaction => .act (.listener name (Reaction.script name reaction))
  | .channel name receiver => .act (.channel name receiver)
  | .view name as => .act (.view name as)
  | .copy name as => .act (.copy name as)
  | .weak name as => .act (.weak name as)
  | .drop name => .act (.drop name)
  | .get name => .act (.get name)
  | .set name value => .set name (value.eval scope literals)
  | .bind name target => .act (.bind name target)
  | .unbind name => .act (.unbind name)
  | .isBound name => .act (.isBound name)
  | .add name listener => .act (.add name listener)
  | .remove name listener => .act (.remove name listener)
  | .contains name listener => .act (.contains name listener)
  | .count name => .act (.count name)
  | .isEmpty name => .act (.isEmpty name)
  | .id name => .act (.id name)
  | .sameId name other => .act (.sameId name other)
  | .sameListener name other => .act (.sameListener name other)
  | .notify name observed old new =>
    .notify name observed (old.eval scope literals) (new.eval scope literals)
  | .wrap name as steps =>
    .wrap name as fun v => Steps.script (fun _ v => .stop v) steps v fun v => .stop v
  | .drain receiver asText => .act (.drain receiver asText)
  | .display name => .act (.display name)
  | .describe name => .act (.describe name)
  | .compare kind a b =>
    .act (.compare ⟨a.old.value kind, a.new.value kind⟩ ⟨b.old.value kind, b.new.value kind⟩)
  | .initial kind => .act (.constant kind.initial)

/-- Commands one after the other; with `stop`, the first failure of one ends them. -/
def Commands.script {ρ : Role} (scope : Scope) (stop : Option (Error → Script Value ρ)) :
    List Command → Script Value ρ → Script Value ρ
  | [], k => k
  | c :: commands, k =>
    c.withKind fun literals =>
      .perform (Command.op scope literals c) fun r =>
        .emit (.performed c.word r) <|
          match stop, r.error? with
          | some stop, some e => stop e
          | _, _ => Commands.script scope stop commands k

/-- The validator of a property. -/
def Validation.script : Validation → Value → Script Value .validator
  | .any, v => .stop (.ok v)
  | .adjusting steps, v =>
    Steps.script (fun _ v => .stop (.ok v)) steps v fun v => .stop (.ok v)
  | .fallible steps, v =>
    Steps.script (fun c _ => .stop (.error c)) steps v fun v => .stop (.ok v)

/-- The reporter of a property. -/
def Reporting.script : Reporting → Option (Error → Script Value .reporter)
  | .nobody => none
  | .recorder => some fun e => .emit (.trace (.updateFailed e)) (.stop ())
  | .named name commands =>
    some fun e =>
      .emit (.reported name e) (Commands.script .outside none commands (.stop ()))

/-- The callback of a listener. -/
def Reaction.script (name : String) : Reaction → Call Value → Script Value .listener
  | .mk limit commands propagates fallible failure, call =>
    let fail (c : Cause) : Script Value .listener :=
      .stop (if fallible then .error c else .ok ())
    let finish : Script Value .listener :=
      match failure with
      | some (p, message) => if p.holds call.new then fail (.text message) else .stop (.ok ())
      | none => .stop (.ok ())
    .emit (.called name call.observed call.current call.old call.new) <|
      if limit.all (call.earlier < ·) then
        Commands.script ⟨call.new, call.old, call.current⟩
          (if propagates then some fun e => fail (.error e) else none) commands finish
      else finish

end

end Observable.Recipe
