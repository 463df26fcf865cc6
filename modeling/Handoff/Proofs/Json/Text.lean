import Handoff.Proofs.Json.Quoted

/-!
# Quoted texts as they are written

`body_writeText`: what is written between quotes spells the characters that are written, so it is
read back by the grammar. A character is written by a short escape, by the long escape of another
control character, or as itself, and each of the three is one of its spellings (`glyph_writeChar`).
-/

namespace Handoff

namespace Json

theorem hexDigit_hexDigit : ∀ n < 16, HexDigit (hexDigit n) n := by decide

/-- Four hexadecimal digits that start with two zeros are the unit of the last two. -/
theorem isUnit_hexDigit {n : Nat} (hn : n < 256) :
    IsUnit ['0', '0', hexDigit (n / 16), hexDigit (n % 16)] n := by
  have h₀ : HexDigit '0' 0 := by decide
  have hu := IsUnit.mk h₀ h₀ (hexDigit_hexDigit (n / 16) (by omega))
    (hexDigit_hexDigit (n % 16) (by omega))
  rwa [show 0 * 0x1000 + 0 * 0x100 + n / 16 * 0x10 + n % 16 = n by omega] at hu

/-- `writeChar` writes a character as one of its spellings. -/
theorem glyph_writeChar (c : Char) : Glyph (writeChar c) c := by
  unfold writeChar
  split
  · subst_vars; exact .short (by decide)
  split
  · subst_vars; exact .short (by decide)
  split
  · subst_vars; exact .short (by decide)
  split
  · subst_vars; exact .short (by decide)
  split
  · subst_vars; exact .short (by decide)
  split
  · subst_vars; exact .short (by decide)
  split
  · subst_vars; exact .short (by decide)
  split
  · rename_i hc
    have hn : c.toNat < 32 := hc
    exact .unit (isUnit_hexDigit (by omega))
  · rename_i hq hb _ _ _ _ _ hc
    exact .plain hq hb (Char.not_lt.mp hc)

/-- **Written texts.** What `writeChar` makes of `cs` is one of the spellings between quotes. -/
theorem body_writeText (cs : List Char) : Body (cs.flatMap writeChar) cs := by
  induction cs with
  | nil => exact .nil
  | cons c cs ih =>
    rw [List.flatMap_cons]
    exact .cons (glyph_writeChar c) ih

end Json

end Handoff
