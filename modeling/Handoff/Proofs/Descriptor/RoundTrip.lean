import Mathlib
import Handoff.Proofs.Descriptor.Reader
import Handoff.Proofs.Json.Text

/-!
# Descriptors read back

* `spells_write`: a descriptor of any texts and any slot of 32 bits is written as one of its
  spellings, member by member (`Member.spelled_write`).
* `parse_write`: so it is parsed as it was written.
* `decode_encode_eq`: decoding adds the check of the slot.
* `decode_encode_normal`: decoding undoes encoding, and encoding makes normal forms.
-/

namespace Handoff

namespace Descriptor

open Json

/-- `writeInt` writes an integer as one of its numerals. -/
theorem isInteger_writeInt (n : Int) : IsInteger (writeInt n) n := by
  unfold writeInt
  split
  · rename_i hn
    have h := isInteger_neg_toDigits (show n.natAbs ≠ 0 by omega)
    rwa [show -(n.natAbs : Int) = n by omega] at h
  · rename_i hn
    have h := isInteger_toDigits n.natAbs
    rwa [show (n.natAbs : Int) = n by omega] at h

/-- A member whose `Value` is spelled by `v` is spelled by its written key and `v`. -/
theorem Member.spelled_write {m : Member} {v : List Char} (hv : m.Value v) :
    m.Spelled (writeText m.key ++ ':' :: v) := by
  have hp : m.Padded ([] ++ (v ++ [])) := .mk .nil hv .nil
  have hs := Member.Spelled.mk .nil (body_writeText m.key) .nil hp
  simpa [writeText] using hs

/-- The three members in their order, taken apart as `Members` has them. -/
theorem write_eq (x : Descriptor) :
    x.write = '\x7b' ::
      (writeText "addr".toList ++ ':' :: writeText x.address.toList ++ ',' ::
        (writeText "fd".toList ++ ':' :: writeInt x.slot ++ ',' ::
          (writeText "filename".toList ++ ':' :: writeText x.debugName.toList)) ++ ['\x7d']) := by
  simp only [write, List.cons_append, List.append_assoc]

/-- A descriptor whose slot has 32 bits (`h₁`, `h₂`) is written as one of its spellings. -/
theorem spells_write (x : Descriptor) (h₁ : -2147483648 ≤ x.slot) (h₂ : x.slot < 2147483648) :
    Spells x.write x := by
  have haddress : (Member.address x.address.toList).Spelled
      (writeText "addr".toList ++ ':' :: writeText x.address.toList) :=
    Member.spelled_write (.address (body_writeText _))
  have hslot : (Member.slot x.slot).Spelled (writeText "fd".toList ++ ':' :: writeInt x.slot) :=
    Member.spelled_write (.slot (isInteger_writeInt _) h₁ h₂)
  have hname : (Member.debugName x.debugName.toList).Spelled
      (writeText "filename".toList ++ ':' :: writeText x.debugName.toList) :=
    Member.spelled_write (.debugName (body_writeText _))
  have hform : Form x.write x := by
    rw [write_eq]
    exact .object (.more haddress (.more hslot (.one hname))) ⟨rfl, rfl, rfl⟩
  simpa using Spells.mk .nil hform .nil

/-- **Round trip.** `parse` gives `x` back as it was written, if `x.slot` has 32 bits, and whatever
the texts of `x` are. -/
theorem parse_write (x : Descriptor) (h₁ : -2147483648 ≤ x.slot) (h₂ : x.slot < 2147483648) :
    parse x.write = .ok x := parse_eq_ok_iff.mpr (spells_write x h₁ h₂)

/-- `decode` only adds the check of the slot. -/
theorem decode_encode_eq (x : Descriptor) (h₁ : -2147483648 ≤ x.slot) (h₂ : x.slot < 2147483648) :
    decode x.encode = if x.slot < listenerSlot then .error (.reservedSlot x.slot) else .ok x := by
  simp [decode, encode, parse_write x h₁ h₂]

/-- The descriptor of an exported listener is decoded as it was encoded. -/
theorem decode_encode_ofListener (address name : String) :
    decode (ofListener address name).encode = .ok (ofListener address name) := by
  rw [decode_encode_eq _ (by simp [ofListener, listenerSlot]) (by simp [ofListener, listenerSlot])]
  rfl

/-! ## Normal forms -/

/-- What `k` rounds of decoding and encoding make of a text. -/
def rounds : Nat → String → Except Error String
  | 0, text => .ok text
  | k + 1, text =>
    match decode text with
    | .error e => .error e
    | .ok x => rounds k x.encode

/-- A text `x.encode` that is decoded to `x` stays as it is. -/
theorem rounds_of_decode_encode {x : Descriptor} (h : decode x.encode = .ok x) (k : Nat) :
    rounds k x.encode = .ok x.encode := by
  induction k with
  | zero => rfl
  | succ k ih => simp only [rounds, h, ih]

/-- A descriptor `x` that some `raw` was decoded to has such a text, as its slot is in range. -/
theorem decode_encode_of_decode {raw : String} {x : Descriptor} (h : decode raw = .ok x) :
    decode x.encode = .ok x := by
  obtain ⟨hspells, hslot⟩ := spells_of_decode h
  obtain ⟨h₁, h₂⟩ := hspells.slot_range
  rw [decode_encode_eq x h₁ h₂, listenerSlot, if_neg (by omega)]

/-- **Decoding undoes encoding.** Every descriptor `x` with a slot of 32 bits is decoded as it was
encoded, or refused for its slot and nothing else. Conversely, if any text `raw` is decoded to `x`,
the slot of `x` is not reserved, and `x.encode` is a normal form, which no number of `rounds`
changes. -/
theorem decode_encode_normal :
    (∀ x : Descriptor, -2147483648 ≤ x.slot → x.slot < 2147483648 →
      (3 ≤ x.slot → decode x.encode = .ok x) ∧
        (x.slot < 3 → decode x.encode = .error (.reservedSlot x.slot))) ∧
    ∀ raw x, decode raw = .ok x →
      3 ≤ x.slot ∧ decode x.encode = .ok x ∧ ∀ k, rounds k x.encode = .ok x.encode := by
  refine ⟨fun x h₁ h₂ => ?_, fun raw x h => ?_⟩
  · rw [decode_encode_eq x h₁ h₂, listenerSlot]
    exact ⟨fun h => if_neg (by omega), fun h => if_pos h⟩
  · have hdecode := decode_encode_of_decode h
    exact ⟨(spells_of_decode h).2, hdecode, rounds_of_decode_encode hdecode⟩

/-- Every kind of escape with the greatest slot, the least slot, and a list with blanks and needless
escapes, which is no normal form. -/
theorem decode_encode_normal_extremes :
    decode (encode ⟨"\"\\/\x08\x0c\n\r\t", 2147483647, "\x01\x1f\x7fé\ud7ff😀"⟩) =
        .ok ⟨"\"\\/\x08\x0c\n\r\t", 2147483647, "\x01\x1f\x7fé\ud7ff😀"⟩ ∧
      decode (encode ⟨"", -2147483648, "\x00"⟩) = .error (.reservedSlot (-2147483648)) ∧
      decode " [ \"\\/\\u0061\" ,3,\"\\ud83d\\ude00\"]\n" = .ok ⟨"/a", 3, "😀"⟩ ∧
      decode (encode ⟨"/a", 3, "😀"⟩) = .ok ⟨"/a", 3, "😀"⟩ ∧
      ∀ k, rounds k (encode ⟨"/a", 3, "😀"⟩) = .ok (encode ⟨"/a", 3, "😀"⟩) := by
  have hread : decode " [ \"\\/\\u0061\" ,3,\"\\ud83d\\ude00\"]\n" = .ok ⟨"/a", 3, "😀"⟩ := by
    cbv
  obtain ⟨hforth, hback⟩ := decode_encode_normal
  exact ⟨(hforth _ (by decide) (by decide)).1 (by decide),
    (hforth _ (by decide) (by decide)).2 (by decide), hread, (hback _ _ hread).2⟩

end Descriptor

end Handoff
