/-!
# Values

The values that observables hold: truth values, integers of five widths, floating-point numbers of
two, and three kinds of text. Equality of values (`==`) is that of their kind, and it is neither
reflexive nor exact: a NaN differs from itself, the two zeros are equal, and case-insensitive texts
are equal if they differ only in the case of `A` to `Z`.
-/

namespace Observable

/-- The kinds of value. -/
inductive Kind where
  | bool | int8 | uint16 | int16 | int32 | int64 | float32 | float64
  | text
  /-- A text or nothing. -/
  | optional
  /-- A text whose equality ignores case. -/
  | caseless
  deriving DecidableEq, Repr

inductive Value where
  | bool (b : Bool)
  | int8 (n : Int8)
  | uint16 (n : UInt16)
  | int16 (n : Int16)
  | int32 (n : Int32)
  | int64 (n : Int64)
  | float32 (x : Float32)
  | float64 (x : Float)
  | text (s : String)
  | optional (s : Option String)
  | caseless (s : String)

namespace Text

/-- Lower case for `A` to `Z`; all other characters stay. -/
def foldCase (s : String) : String := s.map Char.toLower

/-- Upper case for `a` to `z`; all other characters stay. -/
def raiseCase (s : String) : String := s.map Char.toUpper

end Text

namespace Value

def kind : Value → Kind
  | .bool _ => .bool
  | .int8 _ => .int8
  | .uint16 _ => .uint16
  | .int16 _ => .int16
  | .int32 _ => .int32
  | .int64 _ => .int64
  | .float32 _ => .float32
  | .float64 _ => .float64
  | .text _ => .text
  | .optional _ => .optional
  | .caseless _ => .caseless

/-- Equality as the kind of the values has it; values of different kinds differ. -/
protected def beq : Value → Value → Bool
  | .bool a, .bool b => a == b
  | .int8 a, .int8 b => a == b
  | .uint16 a, .uint16 b => a == b
  | .int16 a, .int16 b => a == b
  | .int32 a, .int32 b => a == b
  | .int64 a, .int64 b => a == b
  | .float32 a, .float32 b => a == b
  | .float64 a, .float64 b => a == b
  | .text a, .text b => a == b
  | .optional a, .optional b => a == b
  | .caseless a, .caseless b => Text.foldCase a == Text.foldCase b
  | _, _ => false

instance : BEq Value := ⟨Value.beq⟩

end Value

/-- The value that an observable of a kind starts with when none is given. -/
def Kind.initial : Kind → Value
  | .bool => .bool false
  | .int8 => .int8 0
  | .uint16 => .uint16 0
  | .int16 => .int16 0
  | .int32 => .int32 0
  | .int64 => .int64 0
  | .float32 => .float32 0
  | .float64 => .float64 0
  | .text => .text ""
  | .optional => .optional none
  | .caseless => .caseless ""

theorem Kind.kind_initial (k : Kind) : k.initial.kind = k := by
  cases k <;> rfl

end Observable
