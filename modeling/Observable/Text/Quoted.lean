import Observable.Text.Visible

/-!
# Quoted text

A text between double quotes, in which a quote, a backslash and every character that is not visible
are escaped: tabs, line ends and the null character by a letter, the others by their number.
-/

namespace Observable.Text

/-- A character by its number, in lower-case hexadecimal. -/
def byNumber (c : Char) : String :=
  "\\u\x7b" ++ String.ofList (Nat.toDigits 16 c.toNat) ++ "\x7d"

/-- How a character is written between quotes. -/
def quotedChar (c : Char) : String :=
  if c = '"' then "\\\""
  else if c = '\\' then "\\\\"
  else if c = '\t' then "\\t"
  else if c = '\n' then "\\n"
  else if c = '\r' then "\\r"
  else if c.toNat = 0 then "\\0"
  else if isVisible c then String.singleton c
  else byNumber c

/-- A text between quotes. -/
def quoted (s : String) : String := "\"" ++ String.join (s.toList.map quotedChar) ++ "\""

end Observable.Text
