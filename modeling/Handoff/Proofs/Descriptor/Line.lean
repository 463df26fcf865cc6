import Handoff.Proofs.Descriptor.RoundTrip
import Handoff.Proofs.Echo.Lines
import Handoff.Proofs.Text.OsText

/-!
# Descriptors are written as one line

No spelling of a character between quotes has a control character, whatever it spells, and neither
has a numeral. So a written descriptor has none.

* `Json.Glyph.le`, `Json.Body.le`: spellings between quotes, by the forms of an escape.
* `Descriptor.le_of_mem_encode`: every character of a written descriptor is a space or above.
* `Descriptor.isLine_encode`: so with a newline behind it, it is one line.
* `Descriptor.length_debugName_le`: nothing bounds its length.
-/

namespace Handoff

namespace Json

variable {c d : Char} {t cs : List Char} {n : Nat} {k : Int}

/-! ## Spellings -/

theorem HexDigit.le (h : HexDigit c n) : ' ' ≤ c := by
  have hall : ∀ c ∈ "0123456789abcdef".toList ++ "0123456789ABCDEF".toList, ' ' ≤ c :=
    List.all_iff_forall_prop.mp rfl
  refine hall c (List.mem_append.mpr ?_)
  exact h.imp List.mem_of_getElem? List.mem_of_getElem?

theorem IsUnit.le (h : IsUnit t n) (hd : d ∈ t) : ' ' ≤ d := by
  obtain ⟨ha, hb, hc, hd'⟩ := h
  simp only [List.mem_cons, List.not_mem_nil, or_false] at hd
  rcases hd with rfl | rfl | rfl | rfl
  · exact ha.le
  · exact hb.le
  · exact hc.le
  · exact hd'.le

/-- **Spellings of a character.** Each form of a `Glyph` consists of characters from the space
on. -/
theorem Glyph.le (h : Glyph t c) (hd : d ∈ t) : ' ' ≤ d := by
  have hmarks : ∀ d ∈ ['\\', 'u'], ' ' ≤ d := List.all_iff_forall_prop.mp rfl
  cases h with
  | plain _ _ hc =>
    obtain rfl := List.mem_singleton.mp hd
    exact hc
  | short hl =>
    have hletters : ∀ x ∈ shortEscapes, ' ' ≤ x.1 := by decide
    rcases List.mem_pair.mp hd with rfl | rfl
    · exact hmarks _ (by simp)
    · exact hletters _ hl
  | unit ht =>
    rcases List.mem_append.mp (show d ∈ ['\\', 'u'] ++ _ from hd) with hd | hd
    · exact hmarks d hd
    · exact ht.le hd
  | @pair t u n m _ ht hu =>
    have hsplit : '\\' :: 'u' :: (t ++ '\\' :: 'u' :: u) =
        ['\\', 'u'] ++ t ++ ['\\', 'u'] ++ u := by
      simp
    simp only [hsplit, List.mem_append] at hd
    rcases hd with ((hd | hd) | hd) | hd
    · exact hmarks d hd
    · exact ht.le hd
    · exact hmarks d hd
    · exact hu.le hd

theorem Body.le (h : Body t cs) (hd : d ∈ t) : ' ' ≤ d := by
  induction h with
  | nil => cases hd
  | cons hg _ ih =>
    rcases List.mem_append.mp hd with hd | hd
    · exact hg.le hd
    · exact ih hd

theorem le_of_mem_writeText (hd : d ∈ writeText cs) : ' ' ≤ d := by
  have hquote : ' ' ≤ '"' := by decide
  simp only [writeText, List.cons_append, List.mem_cons, List.mem_append, List.not_mem_nil,
    or_false] at hd
  rcases hd with rfl | hd | rfl
  · exact hquote
  · exact (body_writeText cs).le hd
  · exact hquote

theorem IsWhole.le (h : IsWhole t) (hd : d ∈ t) : ' ' ≤ d := by
  have hdigit := h.1.2 d hd
  simp only [isDigit, Bool.and_eq_true, decide_eq_true_eq] at hdigit
  exact Char.le_trans (by decide) hdigit.1

theorem IsInteger.le (h : IsInteger t k) (hd : d ∈ t) : ' ' ≤ d := by
  cases h with
  | plain ht => exact ht.le hd
  | negative ht =>
    rcases List.mem_cons.mp hd with rfl | hd
    · decide
    · exact ht.le hd

end Json

namespace Descriptor

open Json

/-! ## The line -/

/-- **Characters.** None of those that `encode` writes is below the space. -/
theorem le_of_mem_encode (x : Descriptor) : ∀ d ∈ x.encode.toList, ' ' ≤ d := by
  have htext (cs : List Char) : ∀ d ∈ writeText cs, ' ' ≤ d := fun _ => le_of_mem_writeText
  -- The three keys and the two texts are written by `writeText`, which escapes control characters.
  have hslot : ∀ d ∈ writeInt x.slot, ' ' ≤ d := fun _ => (isInteger_writeInt x.slot).le
  rw [encode, String.toList_ofList, write_eq]
  simp only [List.cons_append, List.append_assoc, List.forall_mem_cons, List.forall_mem_append]
  exact ⟨by decide, htext _, by decide, htext _, by decide, htext _, by decide, hslot, by decide,
    htext _, by decide, htext _, by decide, by simp⟩

/-- No byte `b` of a written descriptor is a control character: a byte below 128 is a character of
the text. -/
theorem not_mem_encode (x : Descriptor) {b : UInt8} (hb : b.toNat < 0x20) :
    b ∉ Utf8.encode x.encode := by
  intro hmem
  have hle : 0x20 ≤ (Char.ofNat b.toNat).toNat :=
    x.le_of_mem_encode _ (Utf8.ofNat_mem_of_mem_encode (by omega) hmem)
  rw [toNat_ofNat_of_isValidChar (.inl (by omega))] at hle
  omega

/-- The text `t` has no control characters, comes back from its bytes and is one line. -/
structure IsLine (t : String) : Prop where
  /-- No character is below the space. -/
  printed : ∀ d ∈ t.toList, ' ' ≤ d
  /-- So none of those that end a text or a line is there. -/
  unended : '\x00' ∉ t.toList ∧ '\n' ∉ t.toList ∧ '\r' ∉ t.toList
  /-- The bytes are read as the text. -/
  unicode : (OsText.ofBytes (Utf8.encode t)).toString? = some t
  /-- A newline behind them makes one line. -/
  line : Cut (Utf8.encode t ++ [newline]) [Utf8.encode t ++ [newline]] []
  /-- This line says the text. -/
  reading : Says (Utf8.encode t ++ [newline]) t

/-- **One line.** This is so for every descriptor `x`, whatever its texts are. -/
theorem isLine_encode (x : Descriptor) : IsLine x.encode where
  printed := x.le_of_mem_encode
  unended := by
    have hmem {d : Char} (hd : ¬ ' ' ≤ d) : d ∉ x.encode.toList := fun h =>
      hd (x.le_of_mem_encode d h)
    exact ⟨hmem (by decide), hmem (by decide), hmem (by decide)⟩
  unicode := by rw [OsText.ofBytes_encode, OsText.toString?_ofString]
  line := .line (x.not_mem_encode (by decide)) (.rest List.not_mem_nil)
  reading := .lf _ fun h => x.not_mem_encode (by decide) (List.mem_of_getLast? h)

/-! ## Its length -/

/-- The debug name makes a descriptor at least as long, since `writeChar` drops no character. -/
theorem length_debugName_le (x : Descriptor) :
    x.debugName.toList.length ≤ x.encode.toList.length := by
  have hchar (c : Char) : 1 ≤ (writeChar c).length := by
    unfold writeChar
    split_ifs <;> simp
  have hbody (cs : List Char) : cs.length ≤ (cs.flatMap writeChar).length := by
    induction cs with
    | nil => simp
    | cons c cs ih =>
      have := hchar c
      simp only [List.flatMap_cons, List.length_append, List.length_cons]
      omega
  have := hbody x.debugName.toList
  simp only [encode, String.toList_ofList, write, writeText, List.length_append, List.length_cons]
  omega

end Descriptor

end Handoff
