import Handoff.Proofs.Json.Grammar

/-!
# Quoted texts by their grammar

* `readText_eq_ok_iff`: a quoted text is read exactly where it spells the characters that are read.
* `skipText_eq_ok_iff`: it is skipped exactly where it has the form of such a spelling.

Both go from the digits up: `readUnit_eq_ok_iff` for the four digits of an escape, then the escape
(`readEscape_eq_ok_iff`, `skipEscape_eq_ok_iff`), then the text by induction.
-/

namespace Handoff

namespace Json

/-! ## The digits of an escape -/

instance (c : Char) (n : Nat) : Decidable (HexDigit c n) := inferInstanceAs (Decidable (_ ∨ _))

theorem HexDigit.lt {c : Char} {n : Nat} (h : HexDigit c n) : n < 16 := by
  rcases h with h | h
  all_goals exact (List.getElem?_eq_some_iff.mp h).1

theorem hexDigit_of_hexDigit? {c : Char} {n : Nat} (h : hexDigit? c = some n) : HexDigit c n := by
  have decimal : ∀ k < 10, HexDigit (Char.ofNat (48 + k)) k := by decide
  have lower : ∀ k < 6, HexDigit (Char.ofNat (97 + k)) (10 + k) := by decide
  have upper : ∀ k < 6, HexDigit (Char.ofNat (65 + k)) (10 + k) := by decide
  have bounds : ∀ {a b : Char}, a ≤ c ∧ c ≤ b → a.toNat ≤ c.toNat ∧ c.toNat ≤ b.toNat := id
  have hc : Char.ofNat c.toNat = c := Char.ofNat_toNat c
  unfold hexDigit? at h
  split at h
  · rename_i hrange
    obtain ⟨h₁, h₂⟩ := bounds hrange
    change 48 ≤ c.toNat at h₁
    change c.toNat ≤ 57 at h₂
    cases h
    have hd := decimal (c.toNat - 48) (by omega)
    rwa [show 48 + (c.toNat - 48) = c.toNat by omega, hc] at hd
  split at h
  · rename_i hrange
    obtain ⟨h₁, h₂⟩ := bounds hrange
    change 97 ≤ c.toNat at h₁
    change c.toNat ≤ 102 at h₂
    cases h
    have hd := lower (c.toNat - 97) (by omega)
    rwa [show 97 + (c.toNat - 97) = c.toNat by omega, hc,
      show 10 + (c.toNat - 97) = c.toNat - 87 by omega] at hd
  split at h
  · rename_i hrange
    obtain ⟨h₁, h₂⟩ := bounds hrange
    change 65 ≤ c.toNat at h₁
    change c.toNat ≤ 70 at h₂
    cases h
    have hd := upper (c.toNat - 65) (by omega)
    rwa [show 65 + (c.toNat - 65) = c.toNat by omega, hc,
      show 10 + (c.toNat - 65) = c.toNat - 55 by omega] at hd
  · cases h

theorem hexDigit?_eq_some_iff {c : Char} {n : Nat} : hexDigit? c = some n ↔ HexDigit c n := by
  have lower : ∀ n < 16, "0123456789abcdef".toList[n]?.bind hexDigit? = some n := by decide
  have upper : ∀ n < 16, "0123456789ABCDEF".toList[n]?.bind hexDigit? = some n := by decide
  refine ⟨hexDigit_of_hexDigit?, fun h => ?_⟩
  rcases id h with h' | h'
  · have hd := lower n h.lt
    rwa [h', Option.bind_some] at hd
  · have hd := upper n h.lt
    rwa [h', Option.bind_some] at hd

theorem shortEscape?_eq_some_iff {l c : Char} :
    shortEscape? l = some c ↔ (l, c) ∈ shortEscapes := by
  constructor
  · intro h
    unfold shortEscape? at h
    split at h
    all_goals cases h
    all_goals decide
  · intro h
    simp only [shortEscapes, List.mem_cons, Prod.mk.injEq, List.not_mem_nil, or_false] at h
    rcases h with ⟨rfl, rfl⟩ | ⟨rfl, rfl⟩ | ⟨rfl, rfl⟩ | ⟨rfl, rfl⟩ | ⟨rfl, rfl⟩ | ⟨rfl, rfl⟩ |
      ⟨rfl, rfl⟩ | ⟨rfl, rfl⟩ <;> rfl

variable {s r t cs : List Char} {n m : Nat} {c : Char}

theorem IsUnit.lt (h : IsUnit t n) : n < 0x10000 := by
  obtain ⟨ha, hb, hc, hd⟩ := h
  have := ha.lt
  have := hb.lt
  have := hc.lt
  have := hd.lt
  omega

/-- `readUnit` reads four digits as their value. -/
theorem readUnit_eq_ok_iff : readUnit s = .ok (n, r) ↔ ∃ t, IsUnit t n ∧ s = t ++ r := by
  constructor
  · intro h
    unfold readUnit at h
    split at h
    · rename_i a b c d r'
      split at h
      · rename_i w x y z ha hb hc hd
        simp only [hexDigit?_eq_some_iff] at ha hb hc hd
        simp only [Except.ok.injEq, Prod.mk.injEq] at h
        obtain ⟨rfl, rfl⟩ := h
        have hn : ((w * 16 + x) * 16 + y) * 16 + z = w * 0x1000 + x * 0x100 + y * 0x10 + z := by
          omega
        exact ⟨[a, b, c, d], hn ▸ .mk ha hb hc hd, rfl⟩
      · cases h
    · cases h
  · rintro ⟨t, ⟨ha, hb, hc, hd⟩, rfl⟩
    simp only [← hexDigit?_eq_some_iff] at ha hb hc hd
    simp only [readUnit, List.cons_append, List.nil_append, ha, hb, hc, hd, Except.ok.injEq,
      Prod.mk.injEq, and_true]
    omega

/-! ## Escapes -/

theorem toNat_ofNat_of_isValidChar (h : n.isValidChar) : (Char.ofNat n).toNat = n := by
  rw [Char.ofNat, dif_pos h]
  rfl

/-- The number `n` of a unit that is no half of a pair is the number of a character. -/
theorem toNat_ofNat_of_single (hn : n < 0x10000) (h₁ : isFirstHalf n = false)
    (h₂ : isSecondHalf n = false) : (Char.ofNat n).toNat = n := by
  simp only [isFirstHalf, isSecondHalf, Bool.and_eq_false_iff, decide_eq_false_iff_not] at h₁ h₂
  refine toNat_ofNat_of_isValidChar ?_
  simp only [Nat.isValidChar]
  omega

/-- The number of a character `c` is no half of a pair. -/
theorem single_toNat (c : Char) : isFirstHalf c.toNat = false ∧ isSecondHalf c.toNat = false := by
  have hc : c.toNat < 0xD800 ∨ 0xDFFF < c.toNat ∧ c.toNat < 0x110000 := c.valid
  simp only [isFirstHalf, isSecondHalf, Bool.and_eq_false_iff, decide_eq_false_iff_not]
  omega

theorem isFirstHalf_iff : isFirstHalf n = true ↔ 0xD800 ≤ n ∧ n < 0xDC00 := by
  simp only [isFirstHalf, Bool.and_eq_true, decide_eq_true_eq]
  omega

theorem isSecondHalf_iff : isSecondHalf n = true ↔ 0xDC00 ≤ n ∧ n < 0xE000 := by
  simp only [isSecondHalf, Bool.and_eq_true, decide_eq_true_eq]
  omega

/-- The number of the character of the pair `n`, `m`, beyond the numbers of one unit. -/
theorem toNat_pairChar (hn : n < 0xDC00) (hm : m < 0xE000) :
    (pairChar n m).toNat = 0x10000 + (n - 0xD800) * 0x400 + (m - 0xDC00) := by
  rw [pairChar, toNat_ofNat_of_isValidChar]
  · omega
  · simp only [Nat.isValidChar]
    omega

/-- The second half `m` of a pair is read from its own escape, and the pair is one character. -/
theorem readSecondHalf_eq_ok_iff :
    readSecondHalf n s = .ok (c, r) ↔
      ∃ u m, IsUnit u m ∧ isSecondHalf m = true ∧ c = pairChar n m ∧ s = '\\' :: 'u' :: u ++ r := by
  constructor
  · intro h
    unfold readSecondHalf at h
    split at h
    · cases h
    · split at h
      · cases h
      · split at h
        · cases h
        · rename_i hm
          obtain ⟨u, hu, rfl⟩ := readUnit_eq_ok_iff.mp hm
          split at h
          · rename_i hm
            simp only [Except.ok.injEq, Prod.mk.injEq] at h
            obtain ⟨hc, rfl⟩ := h
            exact ⟨u, _, hu, hm, hc.symm, rfl⟩
          · cases h
      · cases h
    · cases h
  · rintro ⟨u, m, hu, hm, hc, rfl⟩
    simp only [readSecondHalf, List.cons_append, readUnit_eq_ok_iff.mpr ⟨u, hu, rfl⟩, hm, hc,
      if_true]

/-- An escape is read exactly where it is a `Glyph` of the character that is read. -/
theorem readEscape_eq_ok_iff :
    readEscape s = .ok (c, r) ↔ ∃ g, Glyph ('\\' :: g) c ∧ s = g ++ r := by
  constructor
  · intro h
    unfold readEscape at h
    split at h
    · cases h
    · split at h
      · cases h
      · rename_i n _ hread
        obtain ⟨t, ht, rfl⟩ := readUnit_eq_ok_iff.mp hread
        split at h
        · cases h
        split at h
        · rename_i hn
          obtain ⟨u, m, hu, hm, hc, rfl⟩ := readSecondHalf_eq_ok_iff.mp h
          rw [isFirstHalf_iff] at hn
          rw [isSecondHalf_iff] at hm
          exact ⟨'u' :: (t ++ '\\' :: 'u' :: u),
            .pair ht hu hn.1 hn.2 hm.1 hm.2 (hc ▸ toNat_pairChar hn.2 hm.2), by simp⟩
        · rename_i h₂ h₁
          cases h
          refine ⟨'u' :: t, .unit ?_, rfl⟩
          rwa [toNat_ofNat_of_single ht.lt (by simpa using h₁) (by simpa using h₂)]
    · split at h
      · rename_i hd
        cases h
        exact ⟨[_], .short (shortEscape?_eq_some_iff.mp hd), rfl⟩
      · cases h
  · rintro ⟨g, hg, rfl⟩
    cases hg with
    | plain _ h => exact (h rfl).elim
    | short h =>
      have hl := shortEscape?_eq_some_iff.mpr h
      unfold readEscape
      split
      · rename_i h; cases h
      · rename_i h; cases h; cases hl
      · rename_i h; cases h; simp [hl]
    | @unit t _ h =>
      simp [readEscape, readUnit_eq_ok_iff.mpr ⟨t, h, rfl⟩, single_toNat, Char.ofNat_toNat]
    -- The first half sends the reader on to the second, so it must not pass for a second half
    -- itself.
    | @pair t u n m _ ht hu h₁ h₂ h₃ h₄ hc =>
      have hf : isFirstHalf n = true := isFirstHalf_iff.mpr ⟨h₁, h₂⟩
      have hs : isSecondHalf n = false := by
        rw [← Bool.not_eq_true, isSecondHalf_iff]
        omega
      have hpair : c = pairChar n m := by
        rw [← Char.toNat_inj, hc, toNat_pairChar h₂ h₄]
      have hsecond : readSecondHalf n ('\\' :: 'u' :: u ++ r) = .ok (c, r) :=
        readSecondHalf_eq_ok_iff.mpr ⟨u, m, hu, isSecondHalf_iff.mpr ⟨h₃, h₄⟩, hpair, rfl⟩
      have hfirst : readUnit (t ++ ('\\' :: 'u' :: u ++ r)) = .ok (n, '\\' :: 'u' :: u ++ r) :=
        readUnit_eq_ok_iff.mpr ⟨t, ht, rfl⟩
      rw [List.cons_append, List.append_assoc]
      simp only [readEscape, hfirst, hs, hf, hsecond, if_true, Bool.false_eq_true, if_false]

/-- An escape is skipped exactly where it is a `LooseGlyph`. -/
theorem skipEscape_eq_ok_iff {u : Unit} :
    skipEscape s = .ok (u, r) ↔ ∃ g, LooseGlyph ('\\' :: g) ∧ s = g ++ r := by
  constructor
  · intro h
    unfold skipEscape at h
    split at h
    · cases h
    · split at h
      · cases h
      · rename_i hn
        obtain ⟨t, ht, rfl⟩ := readUnit_eq_ok_iff.mp hn
        cases h
        exact ⟨'u' :: t, .unit ht, rfl⟩
    · split at h
      · rename_i hd
        cases h
        exact ⟨[_], .short (shortEscape?_eq_some_iff.mp hd), rfl⟩
      · cases h
  · rintro ⟨g, hg, rfl⟩
    cases hg with
    | plain _ h => exact (h rfl).elim
    | short h =>
      have hl := shortEscape?_eq_some_iff.mpr h
      unfold skipEscape
      split
      · rename_i h; cases h
      · rename_i h; cases h; cases hl
      · rename_i h; cases h; simp [hl]
    | @unit t _ h => simp [skipEscape, readUnit_eq_ok_iff.mpr ⟨t, h, rfl⟩]

/-! ## Texts -/

theorem readText_escape (he : readEscape t = .ok (c, s)) (hs : readText s = .ok (cs, r)) :
    readText ('\\' :: t) = .ok (c :: cs, r) := by
  rw [readText]
  split
  · rename_i h; rw [he] at h; cases h
  · rename_i h; rw [he] at h; cases h; simp [hs]

theorem readText_plain (hq : c ≠ '"') (hb : c ≠ '\\') (hc : ¬ c < ' ')
    (hs : readText s = .ok (cs, r)) : readText (c :: s) = .ok (c :: cs, r) := by
  rw [readText]
  · simp [hc, hs]
  · exact hq
  · exact hb

/-- A `Glyph` in front of a text is read as its character. -/
theorem readText_glyph (hg : Glyph t c) (hs : readText s = .ok (cs, r)) :
    readText (t ++ s) = .ok (c :: cs, r) := by
  have escape : ∀ {g}, Glyph ('\\' :: g) c → readText ('\\' :: g ++ s) = .ok (c :: cs, r) :=
    fun hg => readText_escape (readEscape_eq_ok_iff.mpr ⟨_, hg, rfl⟩) hs
  cases hg with
  | plain hq hb hc => exact readText_plain hq hb (Char.not_lt.mpr hc) hs
  | short h => exact escape (.short h)
  | unit h => exact escape (.unit h)
  | pair ht hu h₁ h₂ h₃ h₄ hc => exact escape (.pair ht hu h₁ h₂ h₃ h₄ hc)

/-- **Quoted texts.** A text behind its opening quote is read as `cs` exactly where it is a `Body`
of `cs` and is closed. -/
theorem readText_eq_ok_iff :
    readText s = .ok (cs, r) ↔ ∃ b, Body b cs ∧ s = b ++ '"' :: r := by
  constructor
  · intro h
    fun_induction readText s generalizing cs r with
    | case1 => cases h
    | case2 => cases h; exact ⟨[], .nil, rfl⟩
    | case3 => cases h
    | case4 => cases h
    | case5 t c t' he hl cs' t'' ht ih =>
      obtain ⟨g, hg, rfl⟩ := readEscape_eq_ok_iff.mp he
      obtain ⟨b, hb, rfl⟩ := ih ht
      cases h
      exact ⟨'\\' :: g ++ b, .cons hg hb, by simp⟩
    | case6 => cases h
    | case7 => cases h
    | case8 c t hq hb hc cs' t' ht ih =>
      obtain ⟨b, hbody, rfl⟩ := ih ht
      cases h
      exact ⟨[c] ++ b, .cons (.plain hq hb (Char.not_lt.mp hc)) hbody, rfl⟩
  · rintro ⟨b, hb, rfl⟩
    induction hb with
    | nil => simp [readText]
    | cons hg _ ih => rw [List.append_assoc]; exact readText_glyph hg ih

/-- A `LooseGlyph` in front of a text is skipped. -/
theorem skipText_glyph (hg : LooseGlyph t) (hs : skipText s = .ok ((), r)) :
    skipText (t ++ s) = .ok ((), r) := by
  have escape : ∀ {g}, LooseGlyph ('\\' :: g) → skipText ('\\' :: g ++ s) = .ok ((), r) := by
    intro g hg
    have he : skipEscape (g ++ s) = .ok ((), s) := skipEscape_eq_ok_iff.mpr ⟨g, hg, rfl⟩
    rw [List.cons_append, skipText]
    split
    · rename_i h; rw [he] at h; cases h
    · rename_i h; rw [he] at h; cases h; exact hs
  cases hg with
  | plain hq hb hc =>
    rw [List.singleton_append, skipText, if_neg (Char.not_lt.mpr hc), hs]
    · exact hq
    · exact hb
  | short h => exact escape (.short h)
  | unit h => exact escape (.unit h)

/-- **Skipped texts.** A text behind its opening quote is skipped exactly where it is a `LooseBody`
and is closed. -/
theorem skipText_eq_ok_iff {u : Unit} :
    skipText s = .ok (u, r) ↔ ∃ b, LooseBody b ∧ s = b ++ '"' :: r := by
  constructor
  · intro h
    fun_induction skipText s with
    | case1 => cases h
    | case2 => cases h; exact ⟨[], .nil, rfl⟩
    | case3 => cases h
    | case4 t _ t' he hl ih =>
      obtain ⟨g, hg, rfl⟩ := skipEscape_eq_ok_iff.mp he
      obtain ⟨b, hb, rfl⟩ := ih h
      exact ⟨'\\' :: g ++ b, .cons hg hb, by simp⟩
    | case5 => cases h
    | case6 c t hq hb hc ih =>
      obtain ⟨b, hbody, rfl⟩ := ih h
      exact ⟨[c] ++ b, .cons (.plain hq hb (Char.not_lt.mp hc)) hbody, rfl⟩
  · rintro ⟨b, hb, rfl⟩
    induction hb with
    | nil => simp [skipText]
    | cons hg _ ih => rw [List.append_assoc]; exact skipText_glyph hg ih

end Json

end Handoff
