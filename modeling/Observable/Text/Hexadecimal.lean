/-!
# Hexadecimal digits

Numbers written with a fixed count of lower-case hexadecimal digits, and read back. Main statement:
a number that fits is read back from its digits (`read?_digits`).
-/

namespace Observable.Text.Hexadecimal

/-- The digit of a number below sixteen. -/
def digit (n : Nat) : Char := Char.ofNat (if n < 10 then 0x30 + n else 0x57 + n)

/-- The number that a digit stands for. -/
def value? (c : Char) : Option Nat :=
  if 0x30 ≤ c.toNat ∧ c.toNat ≤ 0x39 then some (c.toNat - 0x30)
  else if 0x61 ≤ c.toNat ∧ c.toNat ≤ 0x66 then some (c.toNat - 0x57)
  else none

/-- The last digits of a number, the most significant first. -/
def digits : Nat → Nat → List Char
  | 0, _ => []
  | width + 1, n => digits width (n / 16) ++ [digit (n % 16)]

/-- Reads digits behind those that `n` stands for. -/
def readFrom? (n : Nat) : List Char → Option Nat
  | [] => some n
  | c :: cs =>
    match value? c with
    | some d => readFrom? (16 * n + d) cs
    | none => none

/-- The number that digits stand for. -/
def read? (cs : List Char) : Option Nat := readFrom? 0 cs

theorem value?_digit : ∀ n, n < 16 → value? (digit n) = some n := by
  decide

theorem readFrom?_append (n : Nat) (cs ds : List Char) :
    readFrom? n (cs ++ ds) = (readFrom? n cs).bind (readFrom? · ds) := by
  induction cs generalizing n with
  | nil => rfl
  | cons c cs ih =>
    cases hc : value? c with
    | none => simp [readFrom?, hc]
    | some d => simp [readFrom?, hc, ih]

/-- A number with at most `width` digits is read back from them. -/
theorem read?_digits (width n : Nat) (hfits : n < Nat.pow 16 width) :
    read? (digits width n) = some n := by
  induction width generalizing n with
  | zero =>
    have hzero : n = 0 := Nat.lt_one_iff.1 hfits
    subst hzero
    rfl
  | succ width ih =>
    have hrest : n / 16 < Nat.pow 16 width := by
      have hpow : Nat.pow 16 (width + 1) = Nat.pow 16 width * 16 := rfl
      omega
    have hdigit := value?_digit (n % 16) (Nat.mod_lt n (by decide))
    have hread := ih (n / 16) hrest
    unfold read? at hread ⊢
    rw [digits, readFrom?_append, hread]
    simp only [Option.bind_some, readFrom?, hdigit]
    congr 1
    omega

end Observable.Text.Hexadecimal
