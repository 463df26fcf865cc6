import Handoff.Decimal.Shortest
import Handoff.Text.Quoted

/-!
# Faults in a JSON text

What can be wrong with a text that is read as JSON, and where. A fault keeps the characters that
were unread when it was found, so readers need no counter; `Fault.position` turns it into a line
and a column of the whole text.
-/

namespace Handoff

namespace Json

/-- A value as an error message names it. -/
inductive Found where
  /-- The literal `null`. -/
  | null
  | boolean (b : Bool)
  /-- A number that is kept as an integer. -/
  | integer (n : Int)
  /-- Any other number. -/
  | floating (x : Float)
  | text (cs : List Char)
  /-- A list. -/
  | sequence
  /-- An object. -/
  | map

/-- What a reader asks for. -/
inductive Wanted where
  | text
  /-- An integer of 32 bits with sign. -/
  | int32
  /-- A record with this `name`. -/
  | record (name : String)
  deriving DecidableEq, Repr

/-- What is wrong. -/
inductive Cause where
  /-- The text ends where a value is due. -/
  | endOfValue
  /-- The text ends inside an object. -/
  | endOfObject
  /-- The text ends inside a list. -/
  | endOfList
  /-- The text ends inside a quoted text. -/
  | endOfText
  /-- No value starts with this character. -/
  | expectedValue
  /-- A literal name is misspelt. -/
  | expectedName
  /-- A key is not followed by a colon. -/
  | expectedColon
  /-- A member is followed neither by a comma nor by the end of the object. -/
  | expectedCommaOrBrace
  /-- An element is followed neither by a comma nor by the end of the list. -/
  | expectedCommaOrBracket
  /-- A key is not quoted. -/
  | keyNotText
  | trailingComma
  | trailingCharacters
  /-- A number is misspelt. -/
  | invalidNumber
  /-- A number is too large for a double. -/
  | numberOutOfRange
  /-- A backslash is followed by no escape. -/
  | invalidEscape
  /-- A quoted text holds a control character. -/
  | controlCharacter
  /-- Half of a surrogate pair stands where it cannot be paired. -/
  | loneSurrogate
  /-- The first half of a surrogate pair is not followed by an escape. -/
  | unpairedSurrogate
  | missingField (name : String)
  | duplicateField (name : String)
  /-- A value has the wrong type. -/
  | wrongType (found : Found) (wanted : Wanted)
  /-- An integer is out of range. -/
  | wrongInteger (n : Int) (wanted : Wanted)
  /-- A list is too short for the record. -/
  | wrongLength (length : Nat) (wanted : Wanted) (fields : Nat)

def Found.describe : Found → String
  | .null => "null"
  | .boolean b => s!"boolean `{b}`"
  | .integer n => s!"integer `{n}`"
  | .floating x => s!"floating point `{Decimal.ofFloat x}`"
  | .text cs => s!"string {Quoted.ofText cs}"
  | .sequence => "sequence"
  | .map => "map"

def Wanted.describe : Wanted → String
  | .text => "a string"
  | .int32 => "i32"
  | .record name => s!"struct {name}"

def Cause.message : Cause → String
  | .endOfValue => "EOF while parsing a value"
  | .endOfObject => "EOF while parsing an object"
  | .endOfList => "EOF while parsing a list"
  | .endOfText => "EOF while parsing a string"
  | .expectedValue => "expected value"
  | .expectedName => "expected ident"
  | .expectedColon => "expected `:`"
  | .expectedCommaOrBrace => "expected `,` or `\x7d`"
  | .expectedCommaOrBracket => "expected `,` or `]`"
  | .keyNotText => "key must be a string"
  | .trailingComma => "trailing comma"
  | .trailingCharacters => "trailing characters"
  | .invalidNumber => "invalid number"
  | .numberOutOfRange => "number out of range"
  | .invalidEscape => "invalid escape"
  | .controlCharacter =>
    "control character (\\u0000-\\u001F) found while parsing a string"
  | .loneSurrogate => "lone leading surrogate in hex escape"
  | .unpairedSurrogate => "unexpected end of hex escape"
  | .missingField name => s!"missing field `{name}`"
  | .duplicateField name => s!"duplicate field `{name}`"
  | .wrongType found wanted => s!"invalid type: {found.describe}, expected {wanted.describe}"
  | .wrongInteger n wanted => s!"invalid value: integer `{n}`, expected {wanted.describe}"
  | .wrongLength length wanted fields =>
    s!"invalid length {length}, expected {wanted.describe} with {fields} elements"

/-- What is wrong, and a place: `ahead` many bytes after the start of the characters still
unread. -/
structure Fault where
  /-- What is wrong. -/
  cause : Cause
  /-- The characters still unread. -/
  rest : List Char
  /-- How many bytes of them the place lies behind. -/
  ahead : Nat

def Cause.here (c : Cause) (rest : List Char) : Fault := ⟨c, rest, 0⟩

/-- The fault behind the first unread byte. -/
def Cause.behind (c : Cause) (rest : List Char) : Fault := ⟨c, rest, 1⟩

/-- A line, counted from one, and the number of bytes before the place on it. -/
structure Position where
  line : Nat
  column : Nat
  deriving DecidableEq, Repr

def byteCount (cs : List Char) : Nat := cs.foldl (fun n c => n + c.utf8Size) 0

/-- The position `n` bytes after `p` in a text. -/
def Position.advance (p : Position) (n : Nat) : List Char → Position
  | [] => p
  | c :: cs =>
    if n < c.utf8Size then { p with column := p.column + n }
    else if c = '\n' then Position.advance ⟨p.line + 1, 0⟩ (n - 1) cs
    else Position.advance { p with column := p.column + c.utf8Size } (n - c.utf8Size) cs

/-- Where a fault lies in the `text` that was read; never behind its end. -/
def Fault.position (f : Fault) (text : List Char) : Position :=
  Position.advance ⟨1, 0⟩ (byteCount text - (byteCount f.rest - f.ahead)) text

def Fault.message (f : Fault) (text : List Char) : String :=
  let p := f.position text
  s!"{f.cause.message} at line {p.line} column {p.column}"

end Json

end Handoff
