import Handoff.Descriptor.Reader
import Handoff.Proofs.Json.Value

/-!
# The grammar of descriptors

What a text has to look like to stand for a descriptor, said without the reader.

* `Member`, `Member.Value`: a member of the object, by what it says, and the spellings of its value.
* `Member.Spelled`, `Members`: the spellings of a member, and of several with commas between them.
* `Fields`: the members say each field once, in any order.
* `Form`, `Spells`: an object with these members or a list of the three values, and a whole text.
* `Spells.slot_range`: a text stands for slots of 32 bits only.
-/

namespace Handoff

namespace Descriptor

open Json

/-- What a member of the object says: one of the three fields, or something under another `key`. -/
inductive Member where
  | address (cs : List Char)
  | slot (n : Int)
  | debugName (cs : List Char)
  /-- Something that is not asked for. -/
  | other (key : List Char)

namespace Member

/-- The key of a member, as `Field.name` has it for the three fields. -/
def key : Member → List Char
  | .address _ => "addr".toList
  | .slot _ => "fd".toList
  | .debugName _ => "filename".toList
  | .other key => key

def address? : Member → Option (List Char)
  | .address cs => some cs
  | _ => none

def slot? : Member → Option Int
  | .slot n => some n
  | _ => none

def debugName? : Member → Option (List Char)
  | .debugName cs => some cs
  | _ => none

/-- A spelling of the value of a member: a quoted `Body` for the address and for the debug name, a
numeral that `IsInteger` of 32 bits with sign for the slot, and whatever `Derives .value` for any
other key. -/
inductive Value : Member → List Char → Prop
  | address {b cs : List Char} : Body b cs → Value (.address cs) ('"' :: (b ++ ['"']))
  | slot {t : List Char} {n : Int} : IsInteger t n → -2147483648 ≤ n → n < 2147483648 →
      Value (.slot n) t
  | debugName {b cs : List Char} : Body b cs → Value (.debugName cs) ('"' :: (b ++ ['"']))
  | other {key v : List Char} : key ∉ ["addr".toList, "fd".toList, "filename".toList] →
      Derives .value v → Value (.other key) v

/-- A `Value` of the member `m` between blanks. -/
inductive Padded (m : Member) : List Char → Prop
  | mk {w v w' : List Char} : Blanks w → m.Value v → Blanks w' → Padded m (w ++ (v ++ w'))

/-- A spelling of the member `m`: its key, a colon and its value. -/
inductive Spelled (m : Member) : List Char → Prop
  | mk {w k w' t : List Char} : Blanks w → Body k m.key → Blanks w' → m.Padded t →
      Spelled m (w ++ '"' :: (k ++ '"' :: (w' ++ ':' :: t)))

end Member

/-- A spelling of members, each of them `Spelled`, with commas between them. -/
inductive Members : List Member → List Char → Prop
  | one {m : Member} {t : List Char} : m.Spelled t → Members [m] t
  | more {m : Member} {ms : List Member} {t u : List Char} : m.Spelled t → Members ms u →
      Members (m :: ms) (t ++ ',' :: u)

/-- The members `ms` say each field of `d` once, in any order and among any others. -/
structure Fields (ms : List Member) (d : Descriptor) : Prop where
  address : ms.filterMap Member.address? = [d.address.toList]
  slot : ms.filterMap Member.slot? = [d.slot]
  debugName : ms.filterMap Member.debugName? = [d.debugName.toList]

/-- The two forms of a descriptor `d`: an object whose members say its `Fields`, and a list of the
three values in their order. -/
inductive Form : List Char → Descriptor → Prop
  | object {ms : List Member} {t : List Char} {d : Descriptor} : Members ms t → Fields ms d →
      Form ('\x7b' :: (t ++ ['\x7d'])) d
  | list {a n b : List Char} {d : Descriptor} : (Member.address d.address.toList).Padded a →
      (Member.slot d.slot).Padded n → (Member.debugName d.debugName.toList).Padded b →
      Form ('[' :: (a ++ ',' :: (n ++ ',' :: (b ++ [']'])))) d

/-- A whole text stands for the descriptor `d`: one of its forms between blanks. -/
inductive Spells : List Char → Descriptor → Prop
  | mk {w t w' : List Char} {d : Descriptor} : Blanks w → Form t d → Blanks w' →
      Spells (w ++ (t ++ w')) d

/-! ## Values in range -/

/-- Every member `m` of an object has a spelled value. -/
theorem Members.value_of_mem {ms : List Member} {t : List Char} {m : Member} (h : Members ms t)
    (hm : m ∈ ms) : ∃ v, m.Value v := by
  have value : ∀ {m : Member} {t : List Char}, m.Spelled t → ∃ v, m.Value v := by
    rintro m t ⟨-, -, -, ⟨-, hv, -⟩⟩
    exact ⟨_, hv⟩
  induction h with
  | one ht =>
    obtain rfl := List.mem_singleton.mp hm
    exact value ht
  | more ht _ ih =>
    rcases List.mem_cons.mp hm with rfl | hm
    · exact value ht
    · exact ih hm

/-- The slot of `d` is said by a member. -/
theorem Fields.slot_mem {ms : List Member} {d : Descriptor} (h : Fields ms d) :
    Member.slot d.slot ∈ ms := by
  have hmem : d.slot ∈ ms.filterMap Member.slot? := h.slot ▸ List.mem_singleton_self _
  obtain ⟨m, hm, hslot⟩ := List.mem_filterMap.mp hmem
  cases m with
  | slot n => cases hslot; exact hm
  | _ => cases hslot

/-- A text stands for slots of 32 bits only, since `Value` spells no others. -/
theorem Spells.slot_range {s : List Char} {d : Descriptor} (h : Spells s d) :
    -2147483648 ≤ d.slot ∧ d.slot < 2147483648 := by
  have range : ∀ {v : List Char}, (Member.slot d.slot).Value v →
      -2147483648 ≤ d.slot ∧ d.slot < 2147483648 := by
    rintro v ⟨⟩
    exact ⟨by assumption, by assumption⟩
  obtain ⟨-, hform, -⟩ := h
  cases hform with
  | object hmembers hfields =>
    obtain ⟨v, hv⟩ := hmembers.value_of_mem hfields.slot_mem
    exact range hv
  | list _ hn =>
    obtain ⟨-, hv, -⟩ := hn
    exact range hv

end Descriptor

end Handoff
