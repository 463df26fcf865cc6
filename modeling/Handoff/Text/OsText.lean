import Handoff.Text.Utf8

/-!
# Texts of the operating system

Arguments, variables and paths are bytes that need not be well-formed UTF-8. An `OsText` keeps their
characters, with a hole for each part that is ill formed: it can be cut at a character, compared
with a text, and shown.
-/

namespace Handoff

/-- A piece of an `OsText`. -/
inductive OsChar where
  /-- The character `c`. -/
  | char (c : Char)
  /-- An ill-formed part with these bytes. -/
  | hole (bytes : List UInt8)
  deriving DecidableEq, Repr

namespace OsChar

def char? : OsChar → Option Char
  | .char c => some c
  | .hole _ => none

/-- The character that is shown, which is the replacement character for a hole. -/
def shown : OsChar → Char
  | .char c => c
  | .hole _ => '\uFFFD'

def size : OsChar → Nat
  | .char c => c.utf8Size
  | .hole bytes => bytes.length

end OsChar

/-- A text with holes. -/
structure OsText where
  /-- The characters and the holes, in order. -/
  chars : List OsChar
  deriving DecidableEq, Repr

namespace OsText

/-- A text without holes. -/
def ofString (s : String) : OsText := ⟨s.toList.map .char⟩

instance : Coe String OsText := ⟨ofString⟩

/-- The characters and the holes of `bs`, which is cut into parts. -/
def pieces : List Utf8.Part → List UInt8 → List OsChar
  | [], _ => []
  | p :: ps, bs => p.char?.elim (.hole (bs.take p.size)) .char :: pieces ps (bs.drop p.size)

/-- The text of the bytes `bs`. -/
def ofBytes (bs : List UInt8) : OsText := ⟨pieces (Utf8.parts bs) bs⟩

/-- The text itself, if it has no holes. -/
def toString? (t : OsText) : Option String := (t.chars.mapM OsChar.char?).map String.ofList

/-- The text with the replacement character in each hole. -/
def display (t : OsText) : String := String.ofList (t.chars.map OsChar.shown)

/-- How many bytes a text has. -/
def size (t : OsText) : Nat := t.chars.foldl (fun n c => n + c.size) 0

/-- Whether `c` occurs. -/
def contains (t : OsText) (c : Char) : Bool := t.chars.contains (.char c)

end OsText

end Handoff
