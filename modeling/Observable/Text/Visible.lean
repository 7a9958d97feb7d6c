import Observable.Text.Extending
import Observable.Text.Unassigned

/-!
# Visible characters

A character is visible if it is drawn, and drawn by itself. No other space than the common one is,
nor are controls, format characters, fillers, numbers without an agreed character, and characters
that extend the one before them. `isVisible_ascii` says what that means below `U+0080`.
-/

namespace Observable.Text

/-- Whether a code point lies in one of some ranges. -/
def within (ranges : Array (Nat × Nat)) (n : Nat) : Bool :=
  ranges.any fun r => r.1 ≤ n && n ≤ r.2

/-- The spaces other than the common one, and the separators of lines and paragraphs. -/
def separators : Array (Nat × Nat) :=
  #[(0x00a0, 0x00a0), (0x1680, 0x1680), (0x2000, 0x200a), (0x2028, 0x2029), (0x202f, 0x202f),
    (0x205f, 0x205f), (0x3000, 0x3000)]

/-- The characters that only steer the layout of others. -/
def formats : Array (Nat × Nat) :=
  #[(0x00ad, 0x00ad), (0x0600, 0x0605), (0x061c, 0x061c), (0x06dd, 0x06dd), (0x070f, 0x070f),
    (0x0890, 0x0891), (0x08e2, 0x08e2), (0x180e, 0x180e), (0x200b, 0x200f), (0x202a, 0x202e),
    (0x2060, 0x2064), (0x2066, 0x206f), (0xfeff, 0xfeff), (0xfff9, 0xfffb), (0x110bd, 0x110bd),
    (0x110cd, 0x110cd), (0x13430, 0x1343f), (0x1bca0, 0x1bca3), (0x1d173, 0x1d17a),
    (0xe0001, 0xe0001), (0xe0020, 0xe007f)]

/-- The letters that stand for a missing one and are not drawn. -/
def fillers : Array (Nat × Nat) := #[(0x115f, 0x1160), (0x3164, 0x3164), (0xffa0, 0xffa0)]

/-- The code points whose meaning is left to private agreement. -/
def privateUse : Array (Nat × Nat) :=
  #[(0xe000, 0xf8ff), (0xf0000, 0xffffd), (0x100000, 0x10fffd)]

/-- The control characters: below the space, and from delete up to the no-break space. -/
def isControl (c : Char) : Bool := c.toNat < 0x20 || (0x7f ≤ c.toNat && c.toNat < 0xa0)

/-- Whether a character is drawn, and drawn by itself. -/
def isVisible (c : Char) : Bool :=
  !isControl c && (c.toNat < 0x7f ||
    [separators, formats, fillers, privateUse, extending, unassigned].all (!within · c.toNat))

/-- Of the first 128 characters, those from the space up to the tilde are visible. -/
theorem isVisible_ascii (c : Char) (hascii : c.toNat < 0x80) :
    isVisible c = true ↔ 0x20 ≤ c.toNat ∧ c.toNat < 0x7f := by
  simp only [isVisible, isControl, Bool.and_eq_true, Bool.not_eq_true', Bool.or_eq_false_iff,
    Bool.and_eq_false_iff, Bool.or_eq_true, decide_eq_true_eq, decide_eq_false_iff_not]
  omega

end Observable.Text
