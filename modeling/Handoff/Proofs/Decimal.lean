import Handoff.Proofs.Json.Number

/-!
# Unsigned numerals

`Decimal.read_eq_ok_iff`: what is read is exactly the numerals of the numbers below the limit. A
numeral is one digit or more, with leading zeros or not, behind a plus sign or nothing.
-/

namespace Handoff

namespace Decimal

variable {limit n m : Nat} {cs : List Char}

/-- The numerals of a number below `limit`. -/
inductive IsNumeral (limit : Nat) : List Char → Nat → Prop
  | digits {ds : List Char} : Json.Digits ds → Nat.ofDigitChars 10 ds 0 < limit →
      IsNumeral limit ds (Nat.ofDigitChars 10 ds 0)
  | plus {ds : List Char} : Json.Digits ds → Nat.ofDigitChars 10 ds 0 < limit →
      IsNumeral limit ('+' :: ds) (Nat.ofDigitChars 10 ds 0)

theorem IsNumeral.unique (h : IsNumeral limit cs n) (h' : IsNumeral limit cs m) : n = m := by
  have hplus : ¬ Json.Digits ('+' :: cs.tail) := fun h =>
    absurd (h.2 '+' List.mem_cons_self) (by decide)
  cases h with
  | digits hd _ =>
    cases h' with
    | digits => rfl
    | plus => exact absurd hd hplus
  | plus _ _ =>
    cases h' with
    | digits hd _ => exact absurd hd hplus
    | plus => rfl

theorem digit?_eq (c : Char) :
    digit? c = if Json.isDigit c = true then some (Json.digitValue c) else none := by
  simp [digit?, Json.isDigit, Json.digitValue]

/-- Digits are read on from `n` as long as the value stays below `limit`, so as a whole if it does
in the end. -/
theorem readDigits_eq_ok_iff (hn : n < limit) :
    readDigits limit n cs = .ok m ↔
      (∀ c ∈ cs, Json.isDigit c = true) ∧ m = Nat.ofDigitChars 10 cs n ∧ m < limit := by
  induction cs generalizing n with
  | nil =>
    simp only [readDigits, Except.ok.injEq, Nat.ofDigitChars_nil, List.not_mem_nil, false_implies,
      implies_true, true_and]
    constructor
    · rintro rfl
      exact ⟨rfl, hn⟩
    · rintro ⟨rfl, -⟩
      rfl
  | cons c cs ih =>
    rw [readDigits, digit?_eq, Json.Numeral.ofDigitChars_step]
    by_cases hc : Json.isDigit c = true
    · simp only [hc, if_true, List.forall_mem_cons, true_and]
      split
      · rename_i hlt
        exact ih hlt
      · rename_i hge
        have hle := Json.Numeral.le_ofDigitChars (n * 10 + Json.digitValue c) cs
        refine iff_of_false (by simp) ?_
        rintro ⟨-, rfl, hm⟩
        omega
    · simp [hc]

/-- **Numerals.** `read` accepts those of the numbers below `limit`, and nothing else. -/
theorem read_eq_ok_iff (hlimit : 0 < limit) : read limit cs = .ok n ↔ IsNumeral limit cs n := by
  have hplus : Json.isDigit '+' ≠ true := by decide
  fun_cases read limit cs with
  | case1 =>
    refine iff_of_false (by simp) ?_
    rintro (⟨h, -⟩)
    exact h.1 rfl
  | case2 =>
    refine iff_of_false (by simp) ?_
    rintro (⟨h, -⟩ | ⟨h, -⟩)
    · exact hplus (h.2 '+' List.mem_cons_self)
    · exact h.1 rfl
  | case3 cs hne =>
    rw [readDigits_eq_ok_iff hlimit]
    constructor
    · rintro ⟨hcs, rfl, hn⟩
      exact .plus ⟨fun h => hne (h ▸ rfl), hcs⟩ hn
    · rintro (⟨h, -⟩ | ⟨h, hn⟩)
      · exact absurd (h.2 '+' List.mem_cons_self) hplus
      · exact ⟨h.2, rfl, hn⟩
  | case4 cs hnil _ hsign =>
    rw [readDigits_eq_ok_iff hlimit]
    constructor
    · rintro ⟨hcs, rfl, hn⟩
      exact .digits ⟨hnil, hcs⟩ hn
    · rintro (⟨h, hn⟩ | ⟨h, hn⟩)
      · exact ⟨h.2, rfl, hn⟩
      · exact absurd rfl (hsign _)

/-- Leading zeros do not count. -/
example : read 8 "+007".toList = .ok 7 := rfl

theorem read64_eq_ok_iff {s : String} : read64 s = .ok n ↔ IsNumeral UInt64.size s.toList n :=
  read_eq_ok_iff (by decide)

end Decimal

end Handoff
