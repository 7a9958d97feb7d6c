import Observable.Decimal.Layout
import Observable.Operation
import Observable.Text.Quoted
import Observable.Value.Transform

/-!
# Values as text

A value is written for a reader (`Value.display?`) or for a programmer (`Value.debug`). The second
form tells texts from numbers by quotes, whole floating-point numbers from integers by `.0`, and
names what it shows.
-/

namespace Observable

namespace Value

/-- The text of a floating-point value. -/
def floatText? (l : Decimal.Layout) : Value → Option String
  | .float32 x => some (l.text (Decimal.single.read x.toBits.toNat))
  | .float64 x => some (l.text (Decimal.double.read x.toBits.toNat))
  | _ => none

/-- A value as a reader sees it; a value that may be missing has no such text. -/
def display? (v : Value) : Option String :=
  match v with
  | .optional _ => none
  | v => v.floatText? Decimal.plain <|> Transform.textOf v

/-- A value as a programmer sees it. -/
def debug (v : Value) : String :=
  match v with
  | .text s | .caseless s => Text.quoted s
  | .optional none => "None"
  | .optional (some s) => "Some(" ++ Text.quoted s ++ ")"
  | v => (v.floatText? Decimal.marked <|> Transform.textOf v).getD ""

end Value

/-- The text by which an object's number is shown; the first object is number one. -/
def idText (i : Id) : String := "#" ++ toString (i + 1)

/-- A record with named fields. -/
def recordText (name : String) (fields : List (String × String)) : String :=
  name ++ " \x7b " ++ ", ".intercalate (fields.map fun f => f.1 ++ ": " ++ f.2) ++ " \x7d"

namespace Description

def setText (i : Id) (listeners : Nat) : String :=
  recordText "ListenerSet"
    [("id", "ObservableId(" ++ idText i ++ ")"), ("listeners", toString listeners)]

def propertyText (v : Value) (bound : Bool) (i : Id) (listeners : Nat) : String :=
  recordText "Property"
    [("value", v.debug), ("bound", if bound then "true" else "false"),
      ("listeners", setText i listeners)]

/-- What an object looks like to a programmer. -/
def text : Description Value → String
  | .property v bound i listeners => propertyText v bound i listeners
  | .view v bound i listeners => "ReadOnlyWrapper(" ++ propertyText v bound i listeners ++ ")"
  | .binding v i listeners =>
    recordText "Binding" [("value", v.debug), ("listeners", setText i listeners)]
  | .set i listeners => setText i listeners
  | .listener => "ChangeListener(PTR)"

end Description

/-- What a change looks like to a programmer. -/
def Change.text (c : Change Value) : String :=
  recordText "Change" [("old", c.old.debug), ("new", c.new.debug)]

end Observable
