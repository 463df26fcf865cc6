import Mathlib.Algebra.BigOperators.Group.List.Basic
import Handoff.Proofs.Text.Utf8
import Handoff.Text.OsText

/-!
# Texts with and without holes

* `OsText.toString?_eq_some_iff`: only a text without holes is the text itself.
* `OsText.ofBytes_encode`: the encoding of a text has no holes.
* `OsText.bytes_ofBytes`, `OsText.ofBytes_injective`: bytes of any kind come back from their text,
  so texts are compared as the system compares them.
* `OsText.size_eq_length_bytes`: the size of a text is the number of its bytes.
-/

namespace Handoff

namespace OsText

variable {t : OsText} {s : String}

theorem mapM_char?_eq_some_iff {os : List OsChar} {cs : List Char} :
    os.mapM OsChar.char? = some cs ↔ os = cs.map .char := by
  induction os generalizing cs with
  | nil =>
    simp only [List.mapM_nil, Option.pure_def, Option.some.injEq]
    exact ⟨fun h => h ▸ rfl, fun h => (List.map_eq_nil_iff.mp h.symm).symm⟩
  | cons o os ih =>
    simp only [List.mapM_cons, Option.bind_eq_bind, Option.bind_eq_some_iff, Option.pure_def,
      Option.some.injEq]
    constructor
    · rintro ⟨c, hc, ds, hds, rfl⟩
      cases o with
      | char d =>
        cases hc
        rw [ih.mp hds, List.map_cons]
      | hole bytes => cases hc
    · intro h
      cases cs with
      | nil => cases h
      | cons c ds =>
        obtain ⟨rfl, hos⟩ := List.cons.inj h
        exact ⟨c, rfl, ds, ih.mpr hos, rfl⟩

theorem toString?_eq_some_iff : t.toString? = some s ↔ t = ofString s := by
  simp only [toString?, Option.map_eq_some_iff, mapM_char?_eq_some_iff]
  constructor
  · rintro ⟨cs, hcs, rfl⟩
    rw [ofString, String.toList_ofList, ← hcs]
  · rintro rfl
    exact ⟨s.toList, rfl, String.ofList_toList⟩

@[simp] theorem toString?_ofString (s : String) : (ofString s).toString? = some s :=
  toString?_eq_some_iff.mpr rfl

theorem ofString_injective : Function.Injective ofString := fun s t h => by
  simpa using congrArg toString? h

/-- The text `s` in front of `t`, which may have holes. -/
def prepend (s : String) (t : OsText) : OsText := ⟨s.toList.map .char ++ t.chars⟩

theorem prepend_ofString (s t : String) : prepend s (ofString t) = ofString (s ++ t) := by
  simp [prepend, ofString]

theorem pieces_map_char (cs : List Char) (bs : List UInt8) :
    pieces (cs.map .char) bs = cs.map .char := by
  induction cs generalizing bs with
  | nil => rfl
  | cons c cs ih =>
    rw [List.map_cons, pieces, ih]
    rfl

theorem ofBytes_encode (s : String) : ofBytes (Utf8.encode s) = ofString s := by
  rw [ofBytes, Utf8.parts_encode, pieces_map_char, ofString]

/-! ## The bytes of a text -/

/-- The bytes of a text `t`: the encodings of its characters, and those of its holes. -/
def bytes (t : OsText) : List UInt8 :=
  t.chars.flatMap fun
    | .char c => String.utf8EncodeChar c
    | .hole bs => bs

/-- **Nothing is lost.** The holes keep what is no character, so `ofBytes` can be undone. -/
theorem bytes_ofBytes (bs : List UInt8) : (ofBytes bs).bytes = bs := by
  induction hn : bs.length using Nat.strongRecOn generalizing bs with
  | ind n ih =>
    cases bs with
    | nil => rfl
    | cons b bs =>
      obtain ⟨p, t, rest, hbs, hpos, hsize, hchar, hparts⟩ := Utf8.exists_parts_cons b bs
      have hlt : rest.length < n := by
        rw [← hn, hbs, List.length_append]
        omega
      have hrest : (pieces (Utf8.parts rest) rest).flatMap _ = rest := ih _ hlt rest rfl
      have htake : (b :: bs).take p.size = t := by rw [hbs, hsize, List.take_left]
      have hdrop : (b :: bs).drop p.size = rest := by rw [hbs, hsize, List.drop_left]
      rw [bytes, ofBytes, hparts, pieces, htake, hdrop, List.flatMap_cons, hrest, hbs]
      cases p with
      | char c => exact congrArg (· ++ rest) (hchar c rfl)
      | broken n => rfl
      | cut n => rfl

/-- So two texts are the same exactly if their bytes are. -/
theorem ofBytes_injective : Function.Injective ofBytes :=
  Function.LeftInverse.injective bytes_ofBytes

theorem size_eq_length_bytes (t : OsText) : t.size = t.bytes.length := by
  have hfold (cs : List OsChar) (n : Nat) :
      cs.foldl (fun n c => n + c.size) n = n + (bytes ⟨cs⟩).length := by
    induction cs generalizing n with
    | nil => rfl
    | cons c cs ih =>
      rw [List.foldl_cons, ih]
      cases c <;> simp [bytes, OsChar.size, String.length_utf8EncodeChar, Nat.add_assoc]
  simpa [size] using hfold t.chars 0

theorem bytes_ofString (s : String) : (ofString s).bytes = Utf8.encode s := by
  rw [bytes, ofString, List.flatMap_map, Utf8.encode_eq_flatMap]

/-- Every character of `s` has one byte or more. -/
theorem length_le_size (s : String) : s.toList.length ≤ (ofString s).size := by
  have hpos : ∀ n ∈ s.toList.map fun c => (String.utf8EncodeChar c).length, 1 ≤ n := by
    simp only [List.forall_mem_map, String.length_utf8EncodeChar]
    exact fun c _ => c.utf8Size_pos
  rw [size_eq_length_bytes, bytes_ofString, Utf8.encode_eq_flatMap, List.length_flatMap]
  simpa using List.length_le_sum_of_one_le _ hpos

end OsText

end Handoff
