/-!
# UTF-8

Bytes are cut into characters and ill-formed parts, one part for each longest start of a character
that no further byte continues. The cut is made by an automaton that reads one byte at a time.

* `Utf8.parts`: the parts of a byte sequence.
* `Utf8.check`: the first ill-formed part and where it starts, if there is one.
* `Utf8.decode?`: the characters of a well-formed sequence.
-/

namespace Handoff

namespace Utf8

/-- A part of a byte sequence. -/
inductive Part where
  /-- A character. -/
  | char (c : Char)
  /-- The first `n` bytes of a character, followed by a byte that does not continue it. -/
  | broken (n : Nat)
  /-- The first `n` bytes of a character, followed by nothing. -/
  | cut (n : Nat)
  deriving DecidableEq, Repr

/-- A character of which bytes are missing. -/
structure Unfinished where
  /-- The bits read so far, as a number. -/
  bits : Nat
  /-- How many bytes have been read. -/
  read : Nat
  /-- How many bytes are missing. -/
  missing : Nat
  /-- The least next byte. -/
  low : Nat
  /-- The greatest next byte. -/
  high : Nat
  deriving DecidableEq, Repr

/-- What a byte at the start of a character says: the character or the ill-formed part that it is
by itself, or the character that it opens. The ranges of the second byte leave out overlong forms,
surrogates and code points above `10FFFF`. -/
def start (b : Nat) : Part ⊕ Unfinished :=
  if b < 0x80 then .inl (.char (Char.ofNat b))
  else if b < 0xC2 then .inl (.broken 1)
  else if b < 0xE0 then .inr ⟨b - 0xC0, 1, 1, 0x80, 0xBF⟩
  else if b = 0xE0 then .inr ⟨0, 1, 2, 0xA0, 0xBF⟩
  else if b = 0xED then .inr ⟨0xD, 1, 2, 0x80, 0x9F⟩
  else if b < 0xF0 then .inr ⟨b - 0xE0, 1, 2, 0x80, 0xBF⟩
  else if b = 0xF0 then .inr ⟨0, 1, 3, 0x90, 0xBF⟩
  else if b < 0xF4 then .inr ⟨b - 0xF0, 1, 3, 0x80, 0xBF⟩
  else if b = 0xF4 then .inr ⟨4, 1, 3, 0x80, 0x8F⟩
  else .inl (.broken 1)

/-- Adds a byte `b` that continues the character: the character is then complete, or still open. -/
def Unfinished.push (u : Unfinished) (b : Nat) : Part ⊕ Unfinished :=
  let bits := u.bits * 64 + (b - 0x80)
  if u.missing ≤ 1 then .inl (.char (Char.ofNat bits))
  else .inr ⟨bits, u.read + 1, u.missing - 1, 0x80, 0xBF⟩

/-- The parts completed by one more byte `b`, and the character open after it. -/
def next (u : Option Unfinished) (b : Nat) : List Part × Option Unfinished :=
  let settle : Part ⊕ Unfinished → List Part × Option Unfinished
    | .inl p => ([p], none)
    | .inr v => ([], some v)
  match u with
  | none => settle (start b)
  | some u =>
    if u.low ≤ b ∧ b ≤ u.high then settle (u.push b)
    else
      let (ps, v) := settle (start b)
      (.broken u.read :: ps, v)

/-- The parts of the bytes that follow an open character `u`. -/
def partsFrom (u : Option Unfinished) : List UInt8 → List Part
  | [] => match u with
    | none => []
    | some u => [.cut u.read]
  | b :: bs =>
    let (ps, v) := next u b.toNat
    ps ++ partsFrom v bs

/-- The parts of `bs`, in order. -/
def parts (bs : List UInt8) : List Part := partsFrom none bs

/-- Why a byte sequence is not well formed. -/
inductive Error where
  /-- The `n` bytes at `index` start no character. -/
  | broken (n index : Nat)
  /-- The sequence ends inside the character that starts at `index`. -/
  | cut (index : Nat)
  deriving DecidableEq, Repr

def Error.message : Error → String
  | .broken n index => s!"invalid utf-8 sequence of {n} bytes from index {index}"
  | .cut index => s!"incomplete utf-8 byte sequence from index {index}"

/-- The first ill-formed part of parts that start at byte `index`. -/
def firstError (index : Nat) : List Part → Option Error
  | [] => none
  | .char c :: ps => firstError (index + c.utf8Size) ps
  | .broken n :: _ => some (.broken n index)
  | .cut _ :: _ => some (.cut index)

/-- Why the bytes are not well formed, or `none` if they are. -/
def check (bs : List UInt8) : Option Error := firstError 0 (parts bs)

def Part.char? : Part → Option Char
  | .char c => some c
  | _ => none

def Part.size : Part → Nat
  | .char c => c.utf8Size
  | .broken n => n
  | .cut n => n

def decode? (bs : List UInt8) : Option String :=
  ((parts bs).mapM Part.char?).map String.ofList

def encode (s : String) : List UInt8 := s.toUTF8.toList

end Utf8

end Handoff
