import Handoff.Proofs.Json.Grammar

/-!
# Numbers by their grammar

The scanner takes the longest numeral at the front, so the two directions differ: whatever is
scanned is a numeral (`Numeral.scan_sound`), and a numeral is scanned as a whole if what follows
cannot continue it (`Numeral.scan_complete`, `EndsNumeral`).

* `skipNumber_sound`, `skipNumber_complete`: the same for numbers that are skipped.
* `readNumber_sound`, `readNumber_complete`: a number is read as an integer exactly where it is a
  numeral of this integer that fits 64 bits. Everything else is a double, of which only this is
  needed.
* `isInteger_toDigits`, `isInteger_neg_toDigits`: decimal digits that are written are such numerals.
-/

namespace Handoff

namespace Json

theorem isDigit_eq (c : Char) : isDigit c = c.isDigit := by
  simp only [isDigit, Char.isDigit, Char.le_def]

/-- What follows, `r`, cannot continue digits. -/
def EndsDigits (r : List Char) : Prop := ∀ c s, r = c :: s → isDigit c = false

/-- What follows cannot continue a numeral, neither its digits nor by a fraction or an exponent. -/
def EndsNumeral (r : List Char) : Prop :=
  ∀ c s, r = c :: s → isDigit c = false ∧ c ≠ '.' ∧ c ≠ 'e' ∧ c ≠ 'E'

theorem EndsDigits.cons {c : Char} (h : isDigit c = false) (s : List Char) :
    EndsDigits (c :: s) := by
  rintro _ _ ⟨⟩
  exact h

theorem EndsNumeral.endsDigits {r : List Char} (h : EndsNumeral r) : EndsDigits r :=
  fun c s hr => (h c s hr).1

theorem EndsNumeral.cons {c : Char}
    (h : isDigit c = false ∧ c ≠ '.' ∧ c ≠ 'e' ∧ c ≠ 'E') (s : List Char) :
    EndsNumeral (c :: s) := by
  rintro _ _ ⟨⟩
  exact h

theorem IsFraction.endsDigits {t ds r : List Char} (hf : IsFraction t ds) (hr : EndsDigits r) :
    EndsDigits (t ++ r) := by
  cases hf with
  | absent => exact hr
  | digits => exact .cons (by decide) _

/-- Neither an exponent `t` nor what follows it starts with a digit or a point, so a fraction ends
there. -/
theorem IsExponent.ends {t r : List Char} {x : Option (Bool × List Char)} (hx : IsExponent t x)
    (hr : EndsNumeral r) : EndsDigits (t ++ r) ∧ ∀ s, t ++ r ≠ '.' :: s := by
  cases hx with
  | absent => exact ⟨hr.endsDigits, fun s h => (hr '.' s h).2.1 rfl⟩
  | digits hmark =>
    simp only [List.mem_cons, List.not_mem_nil, or_false] at hmark
    rcases hmark with rfl | rfl
    all_goals exact ⟨.cons (by decide) _, by rintro s ⟨⟩⟩

/-- Blanks `w` do not continue a numeral. -/
theorem EndsNumeral.blanks {w r : List Char} (hw : Blanks w) (hr : EndsNumeral r) :
    EndsNumeral (w ++ r) := by
  cases w with
  | nil => exact hr
  | cons c w =>
    have hc := hw c List.mem_cons_self
    simp only [isBlank, Bool.or_eq_true, beq_iff_eq] at hc
    rcases hc with ((rfl | rfl) | rfl) | rfl <;> exact .cons (by decide) _

namespace Numeral

variable {s t u v r ds : List Char} {e : Cause}

/-! ## Digits -/

theorem spanDigits_append (hd : ∀ c ∈ ds, isDigit c = true) (hr : EndsDigits r) :
    spanDigits (ds ++ r) = (ds, r) := by
  have ht : r.takeWhile isDigit = [] ∧ r.dropWhile isDigit = r := by
    cases r with
    | nil => exact ⟨rfl, rfl⟩
    | cons c s => simp [hr c s rfl]
  rw [spanDigits, List.takeWhile_append_of_pos hd, List.dropWhile_append_of_pos hd, ht.1, ht.2,
    List.append_nil]

theorem spanDigits_sound (h : spanDigits s = (ds, r)) :
    (∀ c ∈ ds, isDigit c = true) ∧ s = ds ++ r := by
  cases h
  exact ⟨List.all_eq_true.mp List.all_takeWhile, List.takeWhile_append_dropWhile.symm⟩

theorem head?_of_spanDigits {c : Char} (hc : isDigit c = true)
    (h : spanDigits (c :: s) = (ds, r)) : ds.head? = some c := by
  rw [show ds = (spanDigits (c :: s)).1 by rw [h], spanDigits, List.takeWhile_cons_of_pos hc,
    List.head?_cons]

/-! ## The whole part -/

/-- The digits of an `IsWhole` are scanned as a whole. -/
theorem scanWhole_complete (hd : IsWhole ds) (hr : EndsDigits r) :
    scanWhole e (ds ++ r) = .ok (ds, r) := by
  obtain ⟨⟨hne, hd⟩, h0⟩ := hd
  obtain ⟨c, cs, rfl⟩ := List.exists_cons_of_ne_nil hne
  rw [List.cons_append]
  unfold scanWhole
  simp only
  split
  · rename_i hc
    subst hc
    obtain rfl : cs = [] := by simpa using h0 rfl
    cases r with
    | nil => rfl
    | cons d s => simp [hr d s rfl]
  · rename_i hc
    rw [if_pos (hd c (by simp)), ← List.cons_append, spanDigits_append hd hr]

theorem isWhole_zero : IsWhole ['0'] := ⟨⟨by simp, by simp; decide⟩, fun _ => rfl⟩

theorem scanWhole_sound (h : scanWhole e s = .ok (ds, r)) : IsWhole ds ∧ s = ds ++ r := by
  unfold scanWhole at h
  split at h
  · cases h
  · rename_i c t
    split at h
    · rename_i hc
      subst hc
      split at h
      · cases h; exact ⟨isWhole_zero, rfl⟩
      · split at h
        · cases h
        · cases h; exact ⟨isWhole_zero, rfl⟩
    · rename_i h0
      split at h
      · rename_i hc
        simp only [Except.ok.injEq] at h
        obtain ⟨hd, hs⟩ := spanDigits_sound h
        have hhead := head?_of_spanDigits hc h
        refine ⟨⟨⟨?_, hd⟩, ?_⟩, hs⟩
        · rintro rfl
          cases hhead
        · intro hz
          rw [hhead] at hz
          exact (h0 (Option.some.inj hz)).elim
      · cases h

/-! ## The fraction and the exponent -/

theorem scanFraction_complete (hf : IsFraction t ds) (hr : EndsDigits r)
    (hp : ∀ s, r ≠ '.' :: s) : scanFraction e (t ++ r) = .ok (ds, r) := by
  cases hf with
  | absent =>
    unfold scanFraction
    split
    · rename_i h; exact (hp _ h).elim
    · rfl
  | digits hd =>
    obtain ⟨hne, hd⟩ := hd
    simp only [scanFraction, List.cons_append, spanDigits_append hd hr]
    split
    · rename_i h; cases h; exact (hne rfl).elim
    · rename_i h; cases h; exact (hne rfl).elim
    · rename_i h; cases h; rfl

theorem scanFraction_sound (h : scanFraction e s = .ok (ds, r)) :
    ∃ t, IsFraction t ds ∧ s = t ++ r := by
  unfold scanFraction at h
  split at h
  · rename_i u
    split at h
    · cases h
    · cases h
    · rename_i hne hspan
      cases h
      obtain ⟨hd, rfl⟩ := spanDigits_sound hspan
      exact ⟨_, .digits ⟨hne, hd⟩, rfl⟩
  · cases h
    exact ⟨[], .absent, rfl⟩

/-- A sign is scanned in front of a digit `d`. -/
theorem scanSign_append {sign : List Char} {negative : Bool} {d : Char}
    (h : (sign, negative) ∈ [([], false), (['+'], false), (['-'], true)]) (hd : isDigit d = true)
    (r : List Char) : scanSign (sign ++ d :: r) = (negative, d :: r) := by
  simp only [List.mem_cons, Prod.mk.injEq, List.not_mem_nil, or_false] at h
  rcases h with ⟨rfl, rfl⟩ | ⟨rfl, rfl⟩ | ⟨rfl, rfl⟩
  · rw [List.nil_append]
    unfold scanSign
    split
    · rename_i h; cases h; exact absurd hd (by decide)
    · rename_i h; cases h; exact absurd hd (by decide)
    · rfl
  · rfl
  · rfl

theorem scanSign_sound {negative : Bool} (h : scanSign s = (negative, r)) :
    ∃ sign, (sign, negative) ∈ [([], false), (['+'], false), (['-'], true)] ∧ s = sign ++ r := by
  unfold scanSign at h
  split at h
  all_goals cases h
  · exact ⟨['+'], by simp, rfl⟩
  · exact ⟨['-'], by simp, rfl⟩
  · exact ⟨[], by simp, rfl⟩

theorem scanExponent_complete {x : Option (Bool × List Char)} (hx : IsExponent t x)
    (hr : EndsNumeral r) : scanExponent e (t ++ r) = .ok (x, r) := by
  cases hx with
  | absent =>
    unfold scanExponent
    split
    · rename_i h; cases h; rfl
    · rename_i c s h
      have hc := hr c s h
      rw [if_neg (by simp [hc.2.2.1, hc.2.2.2]), List.nil_append]
  | @digits mark sign ds negative hmark hsign hd =>
    obtain ⟨hne, hd⟩ := hd
    obtain ⟨d, ds, rfl⟩ := List.exists_cons_of_ne_nil hne
    have hd₁ := hd d List.mem_cons_self
    have hspan : spanDigits (d :: (ds ++ r)) = (d :: ds, r) := spanDigits_append hd hr.endsDigits
    have hmark : mark = 'e' ∨ mark = 'E' := by simpa using hmark
    simp only [List.cons_append, List.append_assoc, scanExponent, if_pos hmark,
      scanSign_append hsign hd₁, if_pos hd₁, hspan]

theorem scanExponent_sound {x : Option (Bool × List Char)} (h : scanExponent e s = .ok (x, r)) :
    ∃ t, IsExponent t x ∧ s = t ++ r := by
  unfold scanExponent at h
  split at h
  · cases h; exact ⟨[], .absent, rfl⟩
  · rename_i c t
    split at h
    · rename_i hc
      generalize hs : scanSign t = p at h
      obtain ⟨negative, u⟩ := p
      obtain ⟨sign, hsign, rfl⟩ := scanSign_sound hs
      simp only at h
      split at h
      · cases h
      · rename_i d v
        split at h
        · rename_i hd
          generalize hspan : spanDigits (d :: v) = p at h
          obtain ⟨ds, w⟩ := p
          cases h
          obtain ⟨hds, hv⟩ := spanDigits_sound hspan
          have hne : ds ≠ [] := by
            rintro rfl
            cases head?_of_spanDigits hd hspan
          exact ⟨_, .digits (by simpa using hc) hsign ⟨hne, hds⟩, by simp [hv]⟩
        · cases h
    · cases h; exact ⟨[], .absent, rfl⟩

/-! ## Numerals -/

theorem scan_complete {n : Numeral} (hn : IsNumeral t n) (hr : EndsNumeral r) :
    scan e (t ++ r) = .ok (n, r) := by
  obtain @⟨sign, whole, f, fraction, x, negative, exponent, hsign, hw, hf, hx⟩ := hn
  have hex := hx.ends hr
  have hwhole : scanWhole e (whole ++ (f ++ (x ++ r))) = .ok (whole, f ++ (x ++ r)) :=
    scanWhole_complete hw (hf.endsDigits hex.1)
  have hfraction : scanFraction e (f ++ (x ++ r)) = .ok (fraction, x ++ r) :=
    scanFraction_complete hf hex.1 hex.2
  have hexponent : scanExponent e (x ++ r) = .ok (exponent, r) := scanExponent_complete hx hr
  -- A whole part starts with a digit, so without a sign none is seen.
  obtain ⟨d, ds, rfl⟩ := List.exists_cons_of_ne_nil hw.1.1
  have hd : d ≠ '-' := by
    rintro rfl
    exact absurd (hw.1.2 '-' List.mem_cons_self) (by decide)
  simp only [List.append_assoc]
  simp only [List.mem_cons, Prod.mk.injEq, List.not_mem_nil, or_false] at hsign
  rcases hsign with ⟨rfl, rfl⟩ | ⟨rfl, rfl⟩
  · rw [List.nil_append]
    rw [List.cons_append] at hwhole ⊢
    unfold scan
    split
    rename_i heq
    split at heq
    · rename_i h; cases h; exact (hd rfl).elim
    · cases heq
      simp only [hwhole, hfraction, hexponent]
  · simp only [scan, List.singleton_append, hwhole, hfraction, hexponent]

theorem scan_sound {n : Numeral} (h : scan e s = .ok (n, r)) : ∃ t, IsNumeral t n ∧ s = t ++ r := by
  unfold scan at h
  split at h
  rename_i negative t heq
  obtain ⟨sign, hsign, hs⟩ :
      ∃ sign, (sign, negative) ∈ [([], false), (['-'], true)] ∧ s = sign ++ t := by
    split at heq
    all_goals cases heq
    · exact ⟨['-'], by simp, rfl⟩
    · exact ⟨[], by simp, rfl⟩
  clear heq
  split at h
  · cases h
  · rename_i h₁
    obtain ⟨hw, rfl⟩ := scanWhole_sound h₁
    split at h
    · cases h
    · rename_i h₂
      obtain ⟨f, hf, rfl⟩ := scanFraction_sound h₂
      split at h
      · cases h
      · rename_i h₃
        obtain ⟨x, hx, rfl⟩ := scanExponent_sound h₃
        cases h
        exact ⟨_, .mk hsign hw hf hx, by simp [hs]⟩

/-! ## The value of the digits -/

theorem le_ofDigitChars (n : Nat) (cs : List Char) : n ≤ Nat.ofDigitChars 10 cs n := by
  induction cs generalizing n with
  | nil => simp
  | cons c cs ih =>
    rw [Nat.ofDigitChars_cons]
    exact Nat.le_trans (by omega) (ih _)

theorem ofDigitChars_step (c : Char) (cs : List Char) (n : Nat) :
    Nat.ofDigitChars 10 (c :: cs) n = Nat.ofDigitChars 10 cs (n * 10 + digitValue c) := by
  rw [Nat.ofDigitChars_cons, Nat.mul_comm]
  rfl

/-- Digits whose value fits 64 bits are gathered by `absorb` without a rest. -/
theorem absorb_eq {n : Nat} {cs : List Char} (h : Nat.ofDigitChars 10 cs n < UInt64.size) :
    absorb n cs = (Nat.ofDigitChars 10 cs n, []) := by
  induction cs generalizing n with
  | nil => simp [absorb]
  | cons c cs ih =>
    rw [ofDigitChars_step] at h ⊢
    rw [absorb, if_pos (Nat.lt_of_le_of_lt (le_ofDigitChars _ cs) h), ih h]

theorem eq_of_absorb {n k : Nat} {cs : List Char} (h : absorb n cs = (k, [])) :
    k = Nat.ofDigitChars 10 cs n := by
  induction cs generalizing n with
  | nil => cases h; simp
  | cons c cs ih =>
    rw [absorb] at h
    split at h
    · rw [ofDigitChars_step]; exact ih h
    · cases h

theorem double_ne_integer {b : Bool} {n : Nat} {x k : Int} :
    double b n x s ≠ .ok (.integer k, r) := by
  intro h
  unfold double at h
  split at h <;> cases h

end Numeral

variable {s t r : List Char} {n : Int}

/-! ## How numerals start -/

theorem IsNumeral.eq_cons {m : Numeral} (h : IsNumeral t m) :
    ∃ c u, t = c :: u ∧ (c = '-' ∨ isDigit c = true) := by
  obtain @⟨sign, whole, f, fraction, x, negative, exponent, hsign, hw, hf, hx⟩ := h
  simp only [List.mem_cons, Prod.mk.injEq, List.not_mem_nil, or_false] at hsign
  rcases hsign with ⟨rfl, rfl⟩ | ⟨rfl, rfl⟩
  · obtain ⟨c, u, rfl⟩ := List.exists_cons_of_ne_nil hw.1.1
    exact ⟨c, _, rfl, .inr (hw.1.2 c List.mem_cons_self)⟩
  · exact ⟨'-', _, rfl, .inl rfl⟩

theorem isBlank_of_starts {c : Char} (h : c = '-' ∨ isDigit c = true) : isBlank c = false := by
  rcases h with rfl | h
  · decide
  · simp only [isDigit, Bool.and_eq_true, decide_eq_true_eq, Char.le_def] at h
    simp only [isBlank, Bool.or_eq_false_iff, beq_eq_false_iff_ne]
    refine ⟨⟨⟨?_, ?_⟩, ?_⟩, ?_⟩ <;> rintro rfl <;> exact absurd h.1 (by decide)

theorem IsWhole.isNumeral (h : IsWhole t) : IsNumeral t ⟨false, t, [], none⟩ := by
  have hn : IsNumeral ([] ++ (t ++ ([] ++ []))) ⟨false, t, [], none⟩ :=
    .mk (by simp) h .absent .absent
  simpa using hn

theorem IsWhole.isNumeral_neg (h : IsWhole t) : IsNumeral ('-' :: t) ⟨true, t, [], none⟩ := by
  have hn : IsNumeral (['-'] ++ (t ++ ([] ++ []))) ⟨true, t, [], none⟩ :=
    .mk (by simp) h .absent .absent
  simpa using hn

theorem IsInteger.isNumeral (h : IsInteger t n) : ∃ m, IsNumeral t m := by
  cases h with
  | plain hw => exact ⟨_, hw.isNumeral⟩
  | negative hw => exact ⟨_, hw.isNumeral_neg⟩

/-! ## Numbers that are skipped -/

theorem skipNumber_sound {u : Unit} (h : skipNumber s = .ok (u, r)) :
    ∃ t m, IsNumeral t m ∧ s = t ++ r := by
  unfold skipNumber at h
  split at h
  · cases h
  · rename_i m _ hm
    cases h
    obtain ⟨t, ht, hs⟩ := Numeral.scan_sound hm
    exact ⟨t, m, ht, hs⟩

theorem skipNumber_complete {m : Numeral} (ht : IsNumeral t m) (hr : EndsNumeral r) :
    skipNumber (t ++ r) = .ok ((), r) := by
  rw [skipNumber, Numeral.scan_complete ht hr]

/-! ## Numbers that are read -/

namespace Numeral

/-- A numeral `m` that is read as the integer `n` has no fraction and no exponent, and `n` is the
value of its digits, with the sign. -/
theorem value_eq_integer {m : Numeral} (h : m.value s = .ok (.integer n, r)) :
    m.fraction = [] ∧ m.exponent = none ∧
      (m.negative = false ∧ n = Nat.ofDigitChars 10 m.whole 0 ∨
        m.negative = true ∧ Nat.ofDigitChars 10 m.whole 0 ≠ 0 ∧
          n = -Nat.ofDigitChars 10 m.whole 0) := by
  unfold value at h
  simp only at h
  split at h
  · rename_i hexcess hfraction hexponent
    have hwhole := eq_of_absorb (Prod.ext rfl hexcess)
    refine ⟨hfraction, hexponent, ?_⟩
    rw [← hwhole]
    split at h
    · rename_i hneg
      split at h
      · cases h
      · rename_i hin
        cases h
        exact .inr ⟨hneg, fun h0 => hin (.inl h0), rfl⟩
    · rename_i hneg
      cases h
      exact .inl ⟨by simpa using hneg, rfl⟩
  · split at h
    · exact (double_ne_integer h).elim
    · split at h
      · exact (double_ne_integer h).elim
      · split at h <;> cases h

theorem value_digits (h : Nat.ofDigitChars 10 t 0 < UInt64.size) :
    value ⟨false, t, [], none⟩ r = .ok (.integer (Nat.ofDigitChars 10 t 0), r) := by
  simp [value, absorb_eq h]

/-- The value of a minus sign and the digits `t` of another number than zero, down to the least of
64 bits. -/
theorem value_neg_digits (h0 : Nat.ofDigitChars 10 t 0 ≠ 0)
    (h : Nat.ofDigitChars 10 t 0 ≤ 9223372036854775808) :
    value ⟨true, t, [], none⟩ r = .ok (.integer (-Nat.ofDigitChars 10 t 0), r) := by
  have hs : Nat.ofDigitChars 10 t 0 < UInt64.size := Nat.lt_of_le_of_lt h (by decide)
  have hin : ¬ (Nat.ofDigitChars 10 t 0 = 0 ∨ 9223372036854775808 < Nat.ofDigitChars 10 t 0) := by
    omega
  simp only [value, absorb_eq hs, if_neg hin, if_true]

end Numeral

/-- **Integers.** What is read as the integer `n` is a numeral of `n`. -/
theorem readNumber_sound (h : readNumber s = .ok (.integer n, r)) :
    ∃ t, IsInteger t n ∧ s = t ++ r := by
  unfold readNumber at h
  split at h
  · cases h
  · rename_i m u hm
    obtain rfl := Numeral.rest_of_value h
    obtain ⟨t, ht, rfl⟩ := Numeral.scan_sound hm
    obtain ⟨hfraction, hexponent, hvalue⟩ := Numeral.value_eq_integer h
    refine ⟨t, ?_, rfl⟩
    obtain @⟨sign, whole, f, fraction, x, negative, exponent, hsign, hw, hf, hx⟩ := ht
    simp only at hfraction hexponent hvalue
    subst hfraction hexponent
    cases hx
    cases hf with
    | digits hd => exact (hd.1 rfl).elim
    | absent =>
      simp only [List.mem_cons, Prod.mk.injEq, List.not_mem_nil, or_false] at hsign
      -- Only the sign is left, which the value tells.
      rcases hvalue with ⟨rfl, rfl⟩ | ⟨rfl, h0, rfl⟩
      · obtain rfl : sign = [] := by simpa using hsign
        simpa using IsInteger.plain hw
      · obtain rfl : sign = ['-'] := by simpa using hsign
        simpa using IsInteger.negative hw h0

/-- A numeral of an integer that fits 64 bits, with or without sign, is read as this integer, if
what follows `EndsNumeral`. -/
theorem readNumber_complete (ht : IsInteger t n) (h₁ : -9223372036854775808 ≤ n)
    (h₂ : n < UInt64.size) (hr : EndsNumeral r) :
    readNumber (t ++ r) = .ok (.integer n, r) := by
  cases ht with
  | plain hw =>
    rw [readNumber, Numeral.scan_complete hw.isNumeral hr]
    exact Numeral.value_digits (by omega)
  | @negative t hw h0 =>
    rw [readNumber, Numeral.scan_complete hw.isNumeral_neg hr]
    exact Numeral.value_neg_digits h0 (by omega)

/-! ## Decimal digits -/

theorem isDigit_of_mem_toDigits {k : Nat} : ∀ c ∈ Nat.toDigits 10 k, isDigit c = true := by
  intro c hc
  rw [isDigit_eq]
  exact Nat.isDigit_of_mem_toDigits (by decide) (by decide) hc

theorem head_toDigits (k : Nat) : (Nat.toDigits 10 k).head? = some '0' → k = 0 := by
  induction k using Nat.strongRecOn with
  | _ k ih =>
    rw [Nat.toDigits_eq_if (by decide)]
    split
    · rename_i hk
      intro h
      have h48 := Nat.toNat_digitChar_of_lt_ten hk
      simp only [List.head?_cons, Option.some.injEq] at h
      rw [h] at h48
      have : '0'.toNat = 48 := rfl
      omega
    · rename_i hk
      intro h
      have := ih (k / 10) (by omega) (by
        rw [List.head?_append] at h
        cases hd : (Nat.toDigits 10 (k / 10)).head? with
        | none => exact (Nat.toDigits_ne_nil (List.head?_eq_none_iff.mp hd)).elim
        | some c => rw [hd] at h; simpa using h)
      omega

theorem isWhole_toDigits (k : Nat) : IsWhole (Nat.toDigits 10 k) :=
  ⟨⟨Nat.toDigits_ne_nil, isDigit_of_mem_toDigits⟩, fun h => by
    rw [head_toDigits k h, Nat.toDigits_zero]⟩

theorem isInteger_toDigits (k : Nat) : IsInteger (Nat.toDigits 10 k) k := by
  have h := IsInteger.plain (isWhole_toDigits k)
  rwa [Nat.ofDigitChars_ten_toDigits] at h

theorem isInteger_neg_toDigits {k : Nat} (h0 : k ≠ 0) :
    IsInteger ('-' :: Nat.toDigits 10 k) (-k) := by
  have h := IsInteger.negative (isWhole_toDigits k)
  rw [Nat.ofDigitChars_ten_toDigits] at h
  exact h h0

end Json

end Handoff
