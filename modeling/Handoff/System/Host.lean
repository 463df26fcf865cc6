/-!
# Hosts

The addresses of hosts, and the texts that they are written as. A literal address is read by
`Host.ofText?`; any other text is a name, of which the network knows more.
-/

namespace Handoff

/-- An address of a host. -/
inductive Host where
  /-- The address `n` of version 4. -/
  | v4 (n : UInt32)
  /-- An address of version 6 by its `groups`, on the `device` with that number or, for zero, on
  any. -/
  | v6 (groups : Vector UInt16 8) (device : UInt32)
  deriving DecidableEq, Repr

namespace Host

def loopback : Host := .v4 0x7F000001

/-- The address of version 4 that has these `groups` in its form of version 6, if there is one. -/
def mapped? (groups : Vector UInt16 8) : Option UInt32 :=
  let high : UInt32 := groups[6].toUInt32
  let low : UInt32 := groups[7].toUInt32
  if groups.toList.take 6 = [0, 0, 0, 0, 0, 0xFFFF] then some (high * 0x10000 + low) else none

/-- The address of version 4 that a host is, in either form. -/
def v4? : Host → Option UInt32
  | .v4 n => some n
  | .v6 groups _ => mapped? groups

/-- Whether a host stands for all addresses of its version. -/
def isAny : Host → Bool
  | .v4 n => n == 0
  | .v6 groups _ => groups.toList.all (· == 0)

def isMulticast (groups : Vector UInt16 8) : Bool := groups[0].toNat / 0x100 == 0xFF

/-- Whether an address of version 6 means something on one device only. -/
def isLinkLocal (groups : Vector UInt16 8) : Bool := groups[0].toNat / 0x40 == 0x3FA

/-- Whether `h` and `k` can be reached at a common address. What stands for all addresses of version
6 stands for those of version 4 as well. -/
def overlaps (h k : Host) : Bool :=
  match h.v4?, k.v4? with
  | some a, some b => a == b || a == 0 || b == 0
  | none, none => h == k || h.isAny || k.isAny
  | none, some _ => h.isAny
  | some _, none => k.isAny

/-! ## Writing -/

def displayV4 (n : UInt32) : String :=
  let n := n.toNat
  s!"{n / 0x1000000}.{n / 0x10000 % 0x100}.{n / 0x100 % 0x100}.{n % 0x100}"

def displayGroups (groups : List UInt16) : String :=
  ":".intercalate (groups.map fun g => String.ofList (Nat.toDigits 16 g.toNat))

/-- Where the longest run of zeros in `groups` starts, and how long it is; of several the first. -/
def zeroRun (groups : List UInt16) : Nat × Nat :=
  (List.range groups.length).foldl (fun best start =>
    let length := ((groups.drop start).takeWhile (· == 0)).length
    if best.2 < length then (start, length) else best) (0, 0)

/-- The text of an address of version 6. The longest run of zeros is a gap, and an address of
version 4 in this form is written as one. -/
def displayV6 (groups : Vector UInt16 8) : String :=
  match mapped? groups with
  | some n => s!"::ffff:{displayV4 n}"
  | none =>
    let gs := groups.toList
    let (start, length) := zeroRun gs
    if length ≤ 1 then displayGroups gs
    else s!"{displayGroups (gs.take start)}::{displayGroups (gs.drop (start + length))}"

/-- The text of a host in front of a port. -/
def display : Host → String
  | .v4 n => displayV4 n
  | .v6 groups device =>
    if device = 0 then s!"[{displayV6 groups}]" else s!"[{displayV6 groups}%{device}]"

/-! ## Reading -/

def digitValue? (c : Char) : Option Nat :=
  if '0' ≤ c ∧ c ≤ '9' then some (c.toNat - 48)
  else if 'a' ≤ c ∧ c ≤ 'f' then some (c.toNat - 87)
  else if 'A' ≤ c ∧ c ≤ 'F' then some (c.toNat - 55)
  else none

/-- The number with the digits `cs` in `base`. -/
def number? (base : Nat) (cs : List Char) : Option Nat :=
  if cs = [] then none
  else cs.foldlM (fun n c => (digitValue? c).bind fun d =>
    if d < base then some (n * base + d) else none) 0

/-- A part of an address of version 4: hexadecimal behind `0x`, octal behind `0`, else decimal. -/
def part? : List Char → Option Nat
  | '0' :: 'x' :: cs => number? 16 cs
  | '0' :: 'X' :: cs => number? 16 cs
  | ['0'] => some 0
  | '0' :: cs => number? 8 cs
  | cs => number? 10 cs

/-- The number of one to four parts: all but the last stand for one byte each, and the last for
the bytes that are left. -/
def ofParts? : List Nat → Option Nat
  | [a] => if a < 0x100000000 then some a else none
  | [a, b] => if a < 0x100 ∧ b < 0x1000000 then some (a * 0x1000000 + b) else none
  | [a, b, c] =>
    if a < 0x100 ∧ b < 0x100 ∧ c < 0x10000 then some (a * 0x1000000 + b * 0x10000 + c) else none
  | [a, b, c, d] =>
    if a < 0x100 ∧ b < 0x100 ∧ c < 0x100 ∧ d < 0x100 then
      some (a * 0x1000000 + b * 0x10000 + c * 0x100 + d)
    else none
  | _ => none

/-- The pieces of a text between the characters `sep`. -/
def split (sep : Char) : List Char → List (List Char)
  | [] => [[]]
  | c :: cs =>
    if c = sep then [] :: split sep cs
    else
      match split sep cs with
      | [] => [[c]]
      | p :: ps => (c :: p) :: ps

def readV4? (cs : List Char) : Option UInt32 :=
  (((split '.' cs).mapM part?).bind ofParts?).map UInt32.ofNat

def byte? (cs : List Char) : Option Nat :=
  if 1 < cs.length ∧ cs.head? = some '0' then none else (number? 10 cs).filter (· < 0x100)

/-- An address of version 4 as four bytes, as it may end one of version 6. -/
def quad? (cs : List Char) : Option Nat :=
  match (split '.' cs).mapM byte? with
  | some [a, b, c, d] => ofParts? [a, b, c, d]
  | _ => none

/-- A group of an address of version 6: up to four hexadecimal digits. -/
def group? (cs : List Char) : Option Nat := if cs.length ≤ 4 then number? 16 cs else none

/-- The groups in front of the gap of an address of version 6. -/
def groups? (cs : List Char) : Option (List Nat) :=
  if cs = [] then some [] else (split ':' cs).mapM group?

/-- The groups at the end of an address of version 6; an address of version 4 may be the last and
counts as two. -/
def lastGroups? (cs : List Char) : Option (List Nat) :=
  match (split ':' cs).reverse with
  | [] => some []
  | last :: front =>
    if last.contains '.' then
      match front.reverse.mapM group?, quad? last with
      | some gs, some n => some (gs ++ [n / 0x10000, n % 0x10000])
      | _, _ => none
    else groups? cs

/-- What stands before and behind the first gap `::`, if there is one. -/
def gap? : List Char → Option (List Char × List Char)
  | [] => none
  | ':' :: ':' :: cs => some ([], cs)
  | c :: cs => (gap? cs).map fun (a, b) => (c :: a, b)

/-- Eight numbers as the groups of an address. -/
def eight? (gs : List Nat) : Option (Vector UInt16 8) :=
  if h : gs.length = 8 then some ⟨(gs.map UInt16.ofNat).toArray, by simp [h]⟩ else none

/-- The groups of an address of version 6; the gap stands for zeros, one at least. -/
def readV6? (cs : List Char) : Option (Vector UInt16 8) :=
  match gap? cs with
  | some (a, b) =>
    match groups? a, lastGroups? b with
    | some x, some y =>
      if x.length + y.length < 8 then
        eight? (x ++ List.replicate (8 - (x.length + y.length)) 0 ++ y)
      else none
    | _, _ => none
  | none => (lastGroups? cs).bind eight?

def device? (cs : List Char) : Option UInt32 :=
  ((number? 10 cs).filter (· < 0x100000000)).map UInt32.ofNat

/-- An address of version 6, with the number of a device behind `%` if that is given. -/
def scoped? (cs : List Char) : Option Host :=
  match readV6? (cs.takeWhile (· ≠ '%')), cs.dropWhile (· ≠ '%') with
  | some gs, [] => some (.v6 gs 0)
  | some gs, _ :: d => (device? d).map (.v6 gs)
  | none, _ => none

/-- The host of a literal address. One of version 6 may stand in brackets if `portHasDigitsOnly`. -/
def ofText? (cs : List Char) (portHasDigitsOnly : Bool) : Option Host :=
  match readV4? cs, cs with
  | some n, _ => some (.v4 n)
  | none, '[' :: r =>
    if portHasDigitsOnly && r.getLast? = some ']' then scoped? r.dropLast else none
  | none, _ => scoped? cs

example : (ofText? "127.1".toList false).map display = some "127.0.0.1" := by decide

end Host

end Handoff
