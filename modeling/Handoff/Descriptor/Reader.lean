import Handoff.Descriptor.Basic
import Handoff.Json.Skip

/-!
# Reading descriptors

A descriptor is read from a JSON object with the members `addr`, `fd` and `filename` in any order,
among others that are skipped, or from a list of the three values in this order. Every value is
checked as it is met. Slots of the standard streams are refused afterwards.
-/

namespace Handoff

namespace Descriptor

open Json

inductive Field where
  | address
  | slot
  | debugName
  deriving DecidableEq, Repr

def Field.name : Field → String
  | .address => "addr"
  | .slot => "fd"
  | .debugName => "filename"

/-- The field that is called `cs`. -/
def Field.ofName? (cs : List Char) : Option Field :=
  if cs = "addr".toList then some .address
  else if cs = "fd".toList then some .slot
  else if cs = "filename".toList then some .debugName
  else none

/-- The fields read so far. -/
structure Draft where
  address : Option (List Char) := none
  slot : Option Int := none
  debugName : Option (List Char) := none
  deriving DecidableEq, Repr

def Draft.has (d : Draft) : Field → Bool
  | .address => d.address.isSome
  | .slot => d.slot.isSome
  | .debugName => d.debugName.isSome

/-- The descriptor of a complete draft, or the first missing field. -/
def Draft.finish (d : Draft) : Except Field Descriptor :=
  match d.address, d.slot, d.debugName with
  | none, _, _ => .error .address
  | _, none, _ => .error .slot
  | _, _, none => .error .debugName
  | some a, some n, some b => .ok ⟨String.ofList a, n, String.ofList b⟩

def wanted : Wanted := .record "HandoffDescriptor"

/-- The quoted text at the front, blanks aside. -/
def readTextValue (s : List Char) : Reading (List Char) :=
  match skipBlanks s with
  | '"' :: r => readText r
  | r => .error (wrongType .text r)

/-- The integer of 32 bits with sign at the front, blanks aside. -/
def readSlotValue (s : List Char) : Reading Int :=
  match skipBlanks s with
  | [] => .error (Cause.endOfValue.behind [])
  | c :: r =>
    if c = '-' ∨ isDigit c then
      match readNumber (c :: r) with
      | .error f => .error f
      | .ok (.integer n, r') =>
        if -2147483648 ≤ n ∧ n < 2147483648 then .ok (n, r')
        else .error ((Cause.wrongInteger n .int32).here r')
      | .ok (.floating x, r') => .error ((Cause.wrongType (.floating x) .int32).here r')
    else .error (wrongType .int32 (c :: r))

/-- The value of the field `f`, added to `d`. -/
def Draft.readField (d : Draft) (f : Field) (s : List Char) : Reading Draft :=
  match f with
  | .address =>
    match readTextValue s with
    | .error e => .error e
    | .ok (cs, r) => .ok ({ d with address := some cs }, r)
  | .slot =>
    match readSlotValue s with
    | .error e => .error e
    | .ok (n, r) => .ok ({ d with slot := some n }, r)
  | .debugName =>
    match readTextValue s with
    | .error e => .error e
    | .ok (cs, r) => .ok ({ d with debugName := some cs }, r)

def skipColon (s : List Char) : Reading Unit :=
  match skipBlanks s with
  | [] => .error (Cause.endOfObject.behind [])
  | ':' :: r => .ok ((), r)
  | r => .error (Cause.expectedColon.behind r)

/-- What follows the opening quote of the next key, or nothing where the object ends. The `first`
key has no comma in front. -/
def nextKey (first : Bool) (s : List Char) : Reading Bool :=
  match skipBlanks s with
  | [] => .error (Cause.endOfObject.behind [])
  | c :: r =>
    if c = '\x7d' then .ok (false, r)
    else if first then
      if c = '"' then .ok (true, r) else .error (Cause.keyNotText.behind (c :: r))
    else if c = ',' then
      match skipBlanks r with
      | [] => .error (Cause.endOfValue.behind [])
      | d :: r' =>
        if d = '"' then .ok (true, r')
        else if d = '\x7d' then .error (Cause.trailingComma.behind (d :: r'))
        else .error (Cause.keyNotText.behind (d :: r'))
    else .error (Cause.expectedCommaOrBrace.behind (c :: r))

/-- What is unread behind a repeated key: blanks and the end of the object, if it comes next, are
still consumed before the fault is placed. -/
def behindRepeatedKey (s : List Char) : List Char :=
  match skipBlanks s with
  | '\x7d' :: r => r
  | r => r

/-- One member behind the opening quote of its key. The value under a key that is no `Field` is
skipped. -/
def Draft.readMember (d : Draft) (s : List Char) : Reading Draft :=
  match readText s with
  | .error f => .error f
  | .ok (key, r) =>
    match Field.ofName? key with
    | some f =>
      if d.has f then .error ((Cause.duplicateField f.name).here (behindRepeatedKey r))
      else
        match skipColon r with
        | .error e => .error e
        | .ok (_, r') => d.readField f r'
    | none =>
      match skipColon r with
      | .error e => .error e
      | .ok (_, r') =>
        match skipValue r' with
        | .error e => .error e
        | .ok (_, r'') => .ok (d, r'')

theorem length_of_nextKey {first b : Bool} {s r : List Char} (h : nextKey first s = .ok (b, r)) :
    r.length < s.length := by
  have hs := length_skipBlanks s
  unfold nextKey at h
  split at h
  · cases h
  · rename_i c t heq
    rw [heq] at hs
    simp only [List.length_cons] at hs
    split at h
    · cases h; omega
    split at h
    · split at h
      · cases h; omega
      · cases h
    split at h
    · have ht := length_skipBlanks t
      split at h
      · cases h
      · rename_i d v hd
        rw [hd] at ht
        simp only [List.length_cons] at ht
        split at h
        · cases h; omega
        split at h
        · cases h
        · cases h
    · cases h

theorem length_of_readTextValue {s r cs : List Char} (h : readTextValue s = .ok (cs, r)) :
    r.length < s.length := by
  have hs := length_skipBlanks s
  unfold readTextValue at h
  split at h
  · rename_i t ht
    rw [ht] at hs
    have := length_of_readText h
    simp only [List.length_cons] at hs
    omega
  · cases h

theorem length_of_readSlotValue {s r : List Char} {n : Int} (h : readSlotValue s = .ok (n, r)) :
    r.length < s.length := by
  have hs := length_skipBlanks s
  unfold readSlotValue at h
  split at h
  · cases h
  · rename_i ht
    rw [ht] at hs
    split at h
    · split at h
      · cases h
      · rename_i hn
        have := length_of_readNumber hn
        split at h
        · cases h; omega
        · cases h
      · cases h
    · cases h

theorem Draft.length_of_readField {d d' : Draft} {f : Field} {s r : List Char}
    (h : d.readField f s = .ok (d', r)) : r.length < s.length := by
  unfold readField at h
  split at h <;> split at h
  all_goals first | cases h; done | skip
  all_goals
    rename_i hv
    simp only [Except.ok.injEq, Prod.mk.injEq] at h
    rw [← h.2]
  · exact length_of_readTextValue hv
  · exact length_of_readSlotValue hv
  · exact length_of_readTextValue hv

theorem length_of_skipColon {s r : List Char} {u : Unit} (h : skipColon s = .ok (u, r)) :
    r.length < s.length := by
  have hs := length_skipBlanks s
  unfold skipColon at h
  split at h
  · cases h
  · rename_i ht
    rw [ht] at hs
    cases h
    simp only [List.length_cons] at hs
    omega
  · cases h

theorem Draft.length_of_readMember {d d' : Draft} {s r : List Char}
    (h : d.readMember s = .ok (d', r)) : r.length < s.length := by
  unfold readMember at h
  split at h
  · cases h
  · rename_i hk
    have h₁ := length_of_readText hk
    split at h
    · split at h
      · cases h
      · split at h
        · cases h
        · rename_i hc
          have h₂ := length_of_skipColon hc
          have h₃ := length_of_readField h
          omega
    · split at h
      · cases h
      · rename_i hc
        have h₂ := length_of_skipColon hc
        split at h
        · cases h
        · rename_i hv
          have h₃ := length_of_skipValue hv
          simp only [Except.ok.injEq, Prod.mk.injEq] at h
          rw [← h.2]
          omega

/-- The members of an object behind its opening brace, and its end; `first` tells that none was read
yet. -/
def Draft.readMembers (d : Draft) (first : Bool) (s : List Char) : Reading Descriptor :=
  match h : nextKey first s with
  | .error f => .error f
  | .ok (false, r) =>
    match d.finish with
    | .error f => .error ((Cause.missingField f.name).here r)
    | .ok descriptor => .ok (descriptor, r)
  | .ok (true, r) =>
    match hm : d.readMember r with
    | .error f => .error f
    | .ok (d', r') =>
      have := length_of_nextKey h
      have := Draft.length_of_readMember hm
      d'.readMembers false r'
termination_by s.length

/-- What precedes the next element of a list that has `count` elements so far. -/
def nextElement (count : Nat) (s : List Char) : Reading Unit :=
  match skipBlanks s with
  | [] => .error (Cause.endOfList.behind [])
  | c :: r =>
    if c = ']' then .error ((Cause.wrongLength count wanted 3).here r)
    else if count = 0 then .ok ((), c :: r)
    else if c = ',' then
      match skipBlanks r with
      | [] => .error (Cause.endOfValue.behind [])
      | d :: r' =>
        if d = ']' then .error (Cause.trailingComma.behind (d :: r')) else .ok ((), d :: r')
    else .error (Cause.expectedCommaOrBracket.behind (c :: r))

def endList (s : List Char) : Reading Unit :=
  match skipBlanks s with
  | [] => .error (Cause.endOfList.behind [])
  | c :: r =>
    if c = ']' then .ok ((), r)
    else if c = ',' then
      match skipBlanks r with
      | ']' :: r' => .error (Cause.trailingComma.behind (']' :: r'))
      | r' => .error (Cause.trailingCharacters.behind r')
    else .error (Cause.trailingCharacters.behind (c :: r))

/-- The three elements of a list behind its opening bracket, and its end. -/
def readElements (s : List Char) : Except Fault (Descriptor × List Char) := do
  let (_, s) ← nextElement 0 s
  let (address, s) ← readTextValue s
  let (_, s) ← nextElement 1 s
  let (slot, s) ← readSlotValue s
  let (_, s) ← nextElement 2 s
  let (debugName, s) ← readTextValue s
  let (_, s) ← endList s
  return (⟨String.ofList address, slot, String.ofList debugName⟩, s)

/-- The descriptor at the front, in either form. -/
def readValue (s : List Char) : Reading Descriptor :=
  match skipBlanks s with
  | [] => .error (Cause.endOfValue.behind [])
  | c :: r =>
    if c = '\x7b' then Draft.readMembers {} true r
    else if c = '[' then readElements r
    else .error (wrongType wanted (c :: r))

/-- The descriptor that a whole `text` stands for, with nothing behind it but blanks. -/
def parse (text : List Char) : Except Fault Descriptor :=
  match readValue text with
  | .error f => .error f
  | .ok (d, r) =>
    match skipBlanks r with
    | [] => .ok d
    | r' => .error (Cause.trailingCharacters.behind r')

/-- Why a text is no descriptor. -/
inductive Error where
  /-- The text does not read as a descriptor; the `message` tells why and where. -/
  | malformed (message : String)
  /-- The `slot` belongs to a standard stream. -/
  | reservedSlot (slot : Int)
  deriving DecidableEq, Repr

def Error.message : Error → String
  | .malformed m => s!"malformed handoff descriptor: {m}"
  | .reservedSlot slot => s!"handoff descriptor names reserved fd slot {slot}"

/-- The descriptor of `text`, whose slot is none of the standard streams. -/
def decode (text : String) : Except Error Descriptor :=
  match parse text.toList with
  | .error f => .error (.malformed (f.message text.toList))
  | .ok d => if d.slot < listenerSlot then .error (.reservedSlot d.slot) else .ok d

end Descriptor

end Handoff
