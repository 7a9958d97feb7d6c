/-!
# The shortest decimal of a binary number

A positive binary number of a format stands for an interval of reals: all those that round to it.
Among the decimals in that interval `Dyadic.shortest` finds one with the fewest digits, and of those
the nearest to the number. All comparisons are exact, on natural numbers.

The search goes through the grids of multiples of `10^e`, coarsest first. If a grid has a point in
the interval, then the multiple below the number or the one above it is such a point, so only these
two are tested.
-/

namespace Observable.Decimal

/-- The number `mantissa · 2^exponent`, which must be positive, and whether the next smaller
number of its format is only half as far away as the next greater one. -/
structure Dyadic where
  mantissa : Nat
  exponent : Int
  narrowBelow : Bool
  deriving DecidableEq, Repr

/-- The number `digits · 10^exponent`. -/
structure Scaled where
  digits : Nat
  exponent : Int
  deriving DecidableEq, Repr

/-- `b` to the power of `e`, with `1` for negative exponents. -/
def powerOf (b : Nat) (e : Int) : Nat := Nat.pow b e.toNat

namespace Dyadic

/-- Quarters of the number's last place, as the numerator of a fraction over `denominator`, in
units of `10^e`. -/
def numerator (b : Dyadic) (e : Int) (quarters : Nat) : Nat :=
  quarters * powerOf 2 (b.exponent - 2) * powerOf 10 (-e)

/-- The denominator of all the fractions of `numerator`. -/
def denominator (b : Dyadic) (e : Int) : Nat := powerOf 2 (2 - b.exponent) * powerOf 10 e

/-- Whether the decimal `d · 10^e` rounds to the number. The ends of the interval do so only
if the mantissa is even. -/
def covers (b : Dyadic) (e : Int) (d : Nat) : Bool :=
  let low := b.numerator e (4 * b.mantissa - if b.narrowBelow then 1 else 2)
  let high := b.numerator e (4 * b.mantissa + 2)
  let point := d * b.denominator e
  if b.mantissa % 2 = 0 then decide (low ≤ point ∧ point ≤ high)
  else decide (low < point ∧ point < high)

/-- The multiple of `10^e` nearest to the number among those that round to it; of two equally near,
the greater. -/
def onGrid? (b : Dyadic) (e : Int) : Option Nat :=
  let number := b.numerator e (4 * b.mantissa)
  let below := number / b.denominator e
  match b.covers e below, b.covers e (below + 1) with
  | false, false => none
  | true, false => some below
  | false, true => some (below + 1)
  | true, true =>
    if number - below * b.denominator e < (below + 1) * b.denominator e - number then some below
    else some (below + 1)

/-- Searches `grids` grids, from `10^e` downwards. -/
def search (b : Dyadic) : Nat → Int → Option Scaled
  | 0, _ => none
  | grids + 1, e =>
    match b.onGrid? e with
    | some d => some ⟨d, e⟩
    | none => search b grids (e - 1)

/-- The shortest decimal that rounds to the number. The grids from `10^308` down to `10^-324`
have one for every number of up to 64 bits. -/
def shortest (b : Dyadic) : Scaled := (b.search 633 308).getD ⟨0, 0⟩

/-- What the search finds rounds to the number. -/
theorem covers_of_search {b : Dyadic} {grids : Nat} {e : Int} {s : Scaled}
    (hfound : b.search grids e = some s) : b.covers s.exponent s.digits = true := by
  induction grids generalizing e with
  | zero => simp [search] at hfound
  | succ grids ih =>
    unfold search at hfound
    split at hfound
    · rename_i d hd
      cases hfound
      unfold onGrid? at hd
      simp only at hd
      split at hd
      · cases hd
      · rename_i hbelow _
        cases hd
        exact hbelow
      · rename_i _ habove
        cases hd
        exact habove
      · rename_i hbelow habove
        split at hd <;> cases hd
        · exact hbelow
        · exact habove
    · exact ih hfound

end Dyadic

/-! ## Binary formats -/

/-- A binary format: how many bits its fraction and its exponent have. -/
structure Format where
  fractionBits : Nat
  exponentBits : Nat

def single : Format := ⟨23, 8⟩

def double : Format := ⟨52, 11⟩

/-- What the bits of a format stand for. -/
inductive Number where
  | nan
  | infinite (negative : Bool)
  | zero (negative : Bool)
  | finite (negative : Bool) (magnitude : Dyadic)
  deriving DecidableEq, Repr

namespace Format

/-- How many fractions there are, which is also the least mantissa with a leading one. -/
def fractions (f : Format) : Nat := Nat.pow 2 f.fractionBits

/-- How many exponents there are. The first stands for numbers without a leading one, the last for
infinities and NaNs. -/
def exponents (f : Format) : Nat := Nat.pow 2 f.exponentBits

/-- The exponent of the last place of the smallest numbers. -/
def leastExponent (f : Format) : Int := 2 - (f.exponents / 2 : Nat) - f.fractionBits

/-- Reads the bits of a format. -/
def read (f : Format) (bits : Nat) : Number :=
  let fraction := bits % f.fractions
  let exponent := bits / f.fractions % f.exponents
  let negative := bits / f.fractions / f.exponents % 2 = 1
  if exponent = f.exponents - 1 then
    if fraction = 0 then .infinite negative else .nan
  else if exponent = 0 then
    if fraction = 0 then .zero negative else .finite negative ⟨fraction, f.leastExponent, false⟩
  else
    .finite negative ⟨f.fractions + fraction, f.leastExponent + (exponent - 1), fraction = 0⟩

end Format

end Observable.Decimal
