import Handoff.Text.Hidden

/-!
# Quoted text

A text between double quotes in which nothing is invisible: the quote, the backslash and the common
control characters have short escapes, and every other character that would not show by itself is
written by its code point in braces.
-/

namespace Handoff

namespace Quoted

/-- What a character becomes between the quotes. -/
def escape (c : Char) : List Char :=
  if c = '"' then ['\\', '"']
  else if c = '\\' then ['\\', '\\']
  else if c = '\n' then ['\\', 'n']
  else if c = '\r' then ['\\', 'r']
  else if c = '\t' then ['\\', 't']
  else if c = '\x00' then ['\\', '0']
  else if isHidden c then
    ['\\', 'u', '\x7b'] ++ Nat.toDigits 16 c.toNat ++ ['\x7d']
  else [c]

/-- The quoted form of a text. -/
def ofText (cs : List Char) : String :=
  String.ofList ('"' :: cs.flatMap escape ++ ['"'])

end Quoted

end Handoff
