import Observable.Decimal.Shortest

/-!
# How a decimal is written

A `Layout` says where positional notation ends and how a whole number is told from a text of digits.
The two layouts in use are those of a value shown to a reader and of a value shown to a programmer.
-/

namespace Observable.Decimal

/-- The choices in writing a decimal. -/
structure Layout where
  /-- What follows the digits of a whole number. -/
  wholeMark : String
  /-- The numbers written positionally: those `0.d₁d₂… · 10^n`, `d₁` not zero, with `n` between
  these bounds; all numbers if there are no bounds. -/
  positional : Option (Int × Int)

/-- Always positional, and whole numbers without a point. -/
def plain : Layout := ⟨"", none⟩

/-- Whole numbers end in `.0`, and numbers below `10^-4` or from `10^16` on have an exponent. -/
def marked : Layout := ⟨".0", some (-3, 16)⟩

namespace Layout

/-- Whether a number `0.d₁d₂… · 10^n` is written positionally. -/
def isPositional (l : Layout) (n : Int) : Bool :=
  match l.positional with
  | none => true
  | some (low, high) => decide (low ≤ n ∧ n ≤ high)

/-- Digits with a point before, between or behind them; the number is `0.d₁d₂… · 10^n`. -/
def positionalText (l : Layout) (digits : List Char) (n : Int) : String :=
  let zeros (k : Int) : List Char := List.replicate k.toNat '0'
  if n ≤ 0 then String.ofList ('0' :: '.' :: (zeros (-n) ++ digits))
  else if (digits.length : Int) ≤ n then
    String.ofList (digits ++ zeros (n - digits.length)) ++ l.wholeMark
  else String.ofList (digits.take n.toNat ++ '.' :: digits.drop n.toNat)

/-- Digits with a point behind the first, and an exponent; the number is `0.d₁d₂… · 10^n`. -/
def exponentText (digits : List Char) (n : Int) : String :=
  let mantissa :=
    match digits with
    | first :: second :: rest => first :: '.' :: second :: rest
    | short => short
  String.ofList mantissa ++ "e" ++ toString (n - 1)

/-- The text of a positive number. -/
def magnitudeText (l : Layout) (s : Scaled) : String :=
  let digits := Nat.toDigits 10 s.digits
  let n := s.exponent + digits.length
  if l.isPositional n then l.positionalText digits n else exponentText digits n

/-- The sign of a number, written only if it is negative. -/
def sign (negative : Bool) : String := if negative then "-" else ""

/-- The text of a number. -/
def text (l : Layout) : Number → String
  | .nan => "NaN"
  | .infinite negative => sign negative ++ "inf"
  | .zero negative => sign negative ++ "0" ++ l.wholeMark
  | .finite negative magnitude => sign negative ++ l.magnitudeText magnitude.shortest

end Layout

end Observable.Decimal
