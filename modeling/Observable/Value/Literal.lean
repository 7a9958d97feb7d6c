import Observable.Text.Hexadecimal
import Observable.Value.Basic

/-!
# Values in writing

A `Literal` is a value as it is written down: nothing, a truth value, a number or a word. It has no
kind of its own, since the same word may be a text at one place and the bits of a floating-point
number at another. So a literal is read as being of the kind that its place asks for
(`Literal.value`), and the result is of that kind (`Literal.kind_value`).
-/

namespace Observable

/-- A value in writing. -/
inductive Literal where
  | nothing
  | flag (b : Bool)
  | number (n : Int)
  | word (s : String)
  deriving DecidableEq, Repr

namespace Bits

/-- Bits as a word: `0x` and hexadecimal digits. -/
def word (width n : Nat) : String :=
  String.ofList ('0' :: 'x' :: Text.Hexadecimal.digits width n)

/-- The bits that a word stands for. -/
def ofWord? (s : String) : Option Nat :=
  match s.toList with
  | '0' :: 'x' :: digits => Text.Hexadecimal.read? digits
  | _ => none

/-- Bits that fit are read back from their word. -/
theorem ofWord?_word (width n : Nat) (hfits : n < Nat.pow 16 width) :
    ofWord? (word width n) = some n := by
  simp [ofWord?, word, Text.Hexadecimal.read?_digits width n hfits]

end Bits

namespace Literal

/-- Reads a number as being of a kind. Integers wrap at the width of their kind. -/
def ofNumber? (n : Int) : Kind → Option Value
  | .int8 => some (.int8 (Int8.ofInt n))
  | .uint16 => some (.uint16 (UInt16.ofInt n))
  | .int16 => some (.int16 (Int16.ofInt n))
  | .int32 => some (.int32 (Int32.ofInt n))
  | .int64 => some (.int64 (Int64.ofInt n))
  | _ => none

/-- Reads a word as being of a kind. A floating-point number is written by its bits, or as `nan`. -/
def ofWord? (s : String) : Kind → Option Value
  | .float32 =>
    if s = "nan" then some (.float32 (0.0 / 0.0))
    else (Bits.ofWord? s).map fun n => .float32 (Float32.ofBits (UInt32.ofNat n))
  | .float64 =>
    if s = "nan" then some (.float64 (0.0 / 0.0))
    else (Bits.ofWord? s).map fun n => .float64 (Float.ofBits (UInt64.ofNat n))
  | .text => some (.text s)
  | .optional => some (.optional (some s))
  | .caseless => some (.caseless s)
  | _ => none

/-- Reads a literal as being of a kind. -/
def read? (l : Literal) (k : Kind) : Option Value :=
  match l with
  | .nothing => if k = .optional then some (.optional none) else none
  | .flag b => if k = .bool then some (.bool b) else none
  | .number n => ofNumber? n k
  | .word s => ofWord? s k

/-- The value of a kind that a literal stands for; a literal that stands for none is read as the
initial value of the kind. -/
def value (l : Literal) (k : Kind) : Value := (l.read? k).getD k.initial

theorem kind_of_read? {l : Literal} {k : Kind} {v : Value} (hread : l.read? k = some v) :
    v.kind = k := by
  cases l with
  | nothing =>
    cases k <;> cases hread
    rfl
  | flag b =>
    cases k <;> cases hread
    rfl
  | number n => cases k <;> cases hread <;> rfl
  | word s =>
    cases k
    case float32 =>
      simp only [read?, ofWord?] at hread
      split at hread
      · cases hread
        rfl
      · obtain ⟨n, _, rfl⟩ := Option.map_eq_some_iff.1 hread
        rfl
    case float64 =>
      simp only [read?, ofWord?] at hread
      split at hread
      · cases hread
        rfl
      · obtain ⟨n, _, rfl⟩ := Option.map_eq_some_iff.1 hread
        rfl
    all_goals cases hread <;> rfl

@[simp] theorem kind_value (l : Literal) (k : Kind) : (l.value k).kind = k := by
  unfold value
  cases hread : l.read? k with
  | none => exact Kind.kind_initial k
  | some v => exact kind_of_read? hread

end Literal

namespace Value

/-- Writes a value. -/
def written : Value → Literal
  | .bool b => .flag b
  | .int8 n => .number n.toInt
  | .uint16 n => .number n.toNat
  | .int16 n => .number n.toInt
  | .int32 n => .number n.toInt
  | .int64 n => .number n.toInt
  | .float32 x => .word (if x.isNaN then "nan" else Bits.word 8 x.toBits.toNat)
  | .float64 x => .word (if x.isNaN then "nan" else Bits.word 16 x.toBits.toNat)
  | .text s => .word s
  | .optional none => .nothing
  | .optional (some s) => .word s
  | .caseless s => .word s

/-- A value that is no floating-point number is read back as it was written. -/
theorem read?_written (v : Value) (h32 : v.kind ≠ .float32) (h64 : v.kind ≠ .float64) :
    v.written.read? v.kind = some v := by
  cases v with
  | float32 x => exact absurd rfl h32
  | float64 x => exact absurd rfl h64
  | optional s => cases s <;> rfl
  | bool b => rfl
  | text s => rfl
  | caseless s => rfl
  | int8 n => simp [written, kind, Literal.read?, Literal.ofNumber?]
  | uint16 n =>
    have hwrap : UInt16.ofInt n.toNat = n := by
      change UInt16.ofNat (((n.toNat : Int) % 65536).toNat) = n
      have hlt : n.toNat < 65536 := n.toNat_lt
      have hrest : ((n.toNat : Int) % 65536).toNat = n.toNat := by omega
      rw [hrest, UInt16.ofNat_toNat]
    simp [written, kind, Literal.read?, Literal.ofNumber?, hwrap]
  | int16 n => simp [written, kind, Literal.read?, Literal.ofNumber?]
  | int32 n => simp [written, kind, Literal.read?, Literal.ofNumber?]
  | int64 n => simp [written, kind, Literal.read?, Literal.ofNumber?]

end Value

end Observable
