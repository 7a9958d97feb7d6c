import Observable.Value.Literal

/-!
# Tests and changes of a value

`Predicate` and `Transform` are the pure building blocks of validators and converters: tests of a
value and functions on values. The literals in them have the kind of the value that they meet.
Integers wrap at the width of their kind, and floating-point numbers follow the arithmetic of
theirs. A building block that does not fit a value's kind leaves it as it is.
-/

namespace Observable

namespace Value

/-! ## Integers -/

/-- The number that an integer value stands for. -/
def toInt? : Value → Option Int
  | .int8 n => some n.toInt
  | .uint16 n => some n.toNat
  | .int16 n => some n.toInt
  | .int32 n => some n.toInt
  | .int64 n => some n.toInt
  | _ => none

/-- An arithmetic operation: exact on integers and then wrapped, or that of the floating-point kind.
-/
def arithmetic (onInt : Int → Int → Int) (on32 : Float32 → Float32 → Float32)
    (on64 : Float → Float → Float) (v k : Value) : Value :=
  match v, k with
  | .float32 x, .float32 y => .float32 (on32 x y)
  | .float64 x, .float64 y => .float64 (on64 x y)
  | _, _ =>
    match v.toInt?, k.toInt? with
    | some a, some b => (Literal.ofNumber? (onInt a b) v.kind).getD v
    | _, _ => v

/-- Changes the text of a value, if it has one. -/
def mapText (f : String → String) : Value → Value
  | .text s => .text (f s)
  | .optional s => .optional (s.map f)
  | .caseless s => .caseless (f s)
  | v => v

/-! ## Order -/

/-- The order of two texts, by code point. -/
def compareText (a b : String) : Ordering := compareOfLessAndEq a b

/-- The order of two values of a kind: numeric, false before true, texts by code point, nothing
before any text. A NaN has no place in it. -/
def compare? : Value → Value → Option Ordering
  | .bool a, .bool b => some (compare a b)
  | .float32 a, .float32 b =>
    if a < b then some .lt else if a == b then some .eq else if b < a then some .gt else none
  | .float64 a, .float64 b =>
    if a < b then some .lt else if a == b then some .eq else if b < a then some .gt else none
  | .text a, .text b => some (compareText a b)
  | .caseless a, .caseless b => some (compareText a b)
  | .optional none, .optional none => some .eq
  | .optional none, .optional (some _) => some .lt
  | .optional (some _), .optional none => some .gt
  | .optional (some a), .optional (some b) => some (compareText a b)
  | a, b =>
    match a.toInt?, b.toInt? with
    | some m, some n => some (compare m n)
    | _, _ => none

def isNaN : Value → Bool
  | .float32 x => x.isNaN
  | .float64 x => x.isNaN
  | _ => false

def isNothing : Value → Bool
  | .optional none => true
  | _ => false

def isEven (v : Value) : Bool :=
  match v.toInt? with
  | some n => n % 2 == 0
  | none => false

end Value

/-- A test of a value. -/
inductive Predicate where
  | always
  | less (k : Literal)
  | greater (k : Literal)
  | equal (k : Literal)
  | unequal (k : Literal)
  | nan
  | nothing
  | even

/-- The place of a value in the order of its kind, as seen from a literal of that kind. -/
def Value.place? (v : Value) (k : Literal) : Option Ordering := v.compare? (k.value v.kind)

def Predicate.holds (v : Value) : Predicate → Bool
  | .always => true
  | .less k => v.place? k == some .lt
  | .greater k => v.place? k == some .gt
  | .equal k => v.place? k == some .eq
  | .unequal k => v.place? k != some .eq
  | .nan => v.isNaN
  | .nothing => v.isNothing
  | .even => v.isEven

/-- A function on values. -/
inductive Transform where
  | add (k : Literal)
  | mul (k : Literal)
  /-- The remainder that is not negative. -/
  | mod (k : Literal)
  | not
  | clamp (low high : Literal)
  | append (s : String)
  | upper
  | take (count : Nat)
  | const (k : Literal)
  | test (p : Predicate)
  /-- One of two values of a kind. -/
  | choose (kind : Kind) (yes no : Literal)
  | toText
  | length
  | cast (kind : Kind)
  /-- Further transforms, if the value passes a test. -/
  | when (p : Predicate) (transforms : List Transform)

namespace Transform

/-- The text of a value that is not a floating-point number. -/
def textOf (v : Value) : Option String :=
  match v with
  | .bool b => some (if b then "true" else "false")
  | .text s | .caseless s | .optional (some s) => some s
  | .optional none => some "null"
  | .float32 _ | .float64 _ => none
  | v => v.toInt?.map toString

/-- The number of characters; a missing text has `-1`. -/
def lengthOf : Value → Option Int
  | .text s | .caseless s | .optional (some s) => some s.length
  | .optional none => some (-1)
  | _ => none

/-- The value as one of another kind, where there is a conversion. -/
def castTo (kind : Kind) (v : Value) : Value :=
  match v, kind with
  | .float32 x, .float64 => .float64 x.toFloat
  | .text s, .optional => .optional (some s)
  | .text s, .caseless => .caseless s
  | v, .float64 => (v.toInt?.map fun n => .float64 (Int64.ofInt n).toFloat).getD v
  | v, kind => (v.toInt?.bind (Literal.ofNumber? · kind)).getD v

/-- The value, or the bound that it is beyond. -/
def clampTo (low high v : Value) : Value :=
  if v.compare? low == some .lt then low
  else if v.compare? high == some .gt then high
  else v

mutual

def apply (v : Value) : Transform → Value
  | .add k => v.arithmetic (· + ·) (· + ·) (· + ·) (k.value v.kind)
  | .mul k => v.arithmetic (· * ·) (· * ·) (· * ·) (k.value v.kind)
  | .mod k => v.arithmetic Int.emod (fun x _ => x) (fun x _ => x) (k.value v.kind)
  | .not =>
    match v with
    | .bool b => .bool !b
    | v => v
  | .clamp low high => clampTo (low.value v.kind) (high.value v.kind) v
  | .append s => v.mapText (· ++ s)
  | .upper => v.mapText Text.raiseCase
  | .take count => v.mapText fun s => String.ofList (s.toList.take count)
  | .const k => k.value v.kind
  | .test p => .bool (p.holds v)
  | .choose kind yes no =>
    match v with
    | .bool b => (if b then yes else no).value kind
    | v => v
  | .toText => ((textOf v).map .text).getD v
  | .length => ((lengthOf v).map fun n => .int32 (Int32.ofInt n)).getD v
  | .cast kind => castTo kind v
  | .when p transforms => if p.holds v then applyAll v transforms else v

/-- Applies transforms one after the other. -/
def applyAll (v : Value) : List Transform → Value
  | [] => v
  | t :: transforms => applyAll (apply v t) transforms

end

end Transform

end Observable
