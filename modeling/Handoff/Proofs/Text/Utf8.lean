import Mathlib.Data.List.Basic
import Mathlib.Tactic.SplitIfs
import Handoff.Proofs.Json.Quoted
import Handoff.Text.Utf8

/-!
# Well-formed bytes

The automaton that cuts bytes into characters finds nothing wrong with them exactly if they are the
encoding of a text.

* `Utf8.Completes`: the bytes that complete an open character, and its number.
* `Utf8.encodeChar_of_completes`, `Utf8.encodeChar_cases`: an opening byte and the bytes that
  complete it are the encoding of a character, and every longer encoding has this form.
* `Utf8.partsFrom_cases`, `Utf8.exists_parts_cons`: what becomes of an open character, and the first
  part of any bytes with the front of them that it stands for.
* `Utf8.check_eq_none_iff`: so bytes are well formed exactly if they encode a text.
-/

namespace Handoff

namespace Utf8

/-! ## The encoding of a text -/

theorem toList_loop_eq (bs : ByteArray) (i : Nat) (acc : List UInt8) :
    ByteArray.toList.loop bs i acc = acc.reverse ++ bs.data.toList.drop i := by
  fun_induction ByteArray.toList.loop bs i acc with
  | case1 i acc h ih =>
    have hlt : i < bs.data.toList.length := by simpa using h
    rw [ih, List.drop_eq_getElem_cons hlt]
    simp [ByteArray.get!, h]
  | case2 i acc h =>
    have hle : bs.data.toList.length ≤ i := by simpa using h
    rw [List.drop_eq_nil_of_le hle, List.append_nil]

theorem encode_eq_flatMap (s : String) : encode s = s.toList.flatMap String.utf8EncodeChar := by
  rw [encode, ByteArray.toList, toList_loop_eq, String.toUTF8_eq_toByteArray,
    ← String.utf8Encode_toList, List.utf8Encode]
  simp

@[simp] theorem encode_append (s t : String) : encode (s ++ t) = encode s ++ encode t := by
  simp [encode_eq_flatMap]

/-- The bytes of the character with the number `n`, as numbers. -/
def encodeNumber (n : Nat) : List Nat :=
  if n ≤ 0x7F then [n]
  else if n ≤ 0x7FF then [n / 64 + 0xC0, n % 64 + 0x80]
  else if n ≤ 0xFFFF then [n / 4096 + 0xE0, n / 64 % 64 + 0x80, n % 64 + 0x80]
  else [n / 262144 + 0xF0, n / 4096 % 64 + 0x80, n / 64 % 64 + 0x80, n % 64 + 0x80]

theorem map_toNat_encodeChar (c : Char) :
    (String.utf8EncodeChar c).map UInt8.toNat = encodeNumber c.toNat := by
  have hlt : c.toNat < 0x110000 := by
    have hc : c.toNat < 0xD800 ∨ 0xDFFF < c.toNat ∧ c.toNat < 0x110000 := c.valid
    omega
  show (String.utf8EncodeChar c).map UInt8.toNat = _
  unfold String.utf8EncodeChar encodeNumber
  simp only [show c.val.toNat = c.toNat from rfl]
  split_ifs <;> simp [UInt8.toNat_ofNat'] <;> omega

/-- The bytes `bs` are the encoding of the character `n` if their numbers are. -/
theorem encodeChar_eq {n : Nat} {bs : List UInt8} (hn : n.isValidChar)
    (h : bs.map UInt8.toNat = encodeNumber n) : String.utf8EncodeChar (Char.ofNat n) = bs := by
  have hinj : Function.Injective UInt8.toNat := fun _ _ => UInt8.toNat_inj.mp
  apply List.map_injective_iff.mpr hinj
  rw [map_toNat_encodeChar, Json.toNat_ofNat_of_isValidChar hn, h]

/-! ## Open characters -/

/-- The open character `u` after the byte `b`, which it admits. -/
def Unfinished.extend (u : Unfinished) (b : Nat) : Unfinished :=
  ⟨u.bits * 64 + (b - 0x80), u.read + 1, u.missing - 1, 0x80, 0xBF⟩

@[simp] theorem Unfinished.missing_extend (u : Unfinished) (b : Nat) :
    (u.extend b).missing = u.missing - 1 := rfl

@[simp] theorem Unfinished.read_extend (u : Unfinished) (b : Nat) :
    (u.extend b).read = u.read + 1 := rfl

@[simp] theorem Unfinished.bits_extend (u : Unfinished) (b : Nat) :
    (u.extend b).bits = u.bits * 64 + (b - 0x80) := rfl

@[simp] theorem Unfinished.low_extend (u : Unfinished) (b : Nat) : (u.extend b).low = 0x80 := rfl

@[simp] theorem Unfinished.high_extend (u : Unfinished) (b : Nat) : (u.extend b).high = 0xBF := rfl

/-- The bytes complete the open character, to the one with this number. -/
inductive Completes : Unfinished → List UInt8 → Nat → Prop
  | done {u : Unfinished} : u.missing = 0 → Completes u [] u.bits
  | more {u : Unfinished} {b : UInt8} {t : List UInt8} {n : Nat} : 0 < u.missing →
      u.low ≤ b.toNat → b.toNat ≤ u.high → Completes (u.extend b.toNat) t n → Completes u (b :: t) n

variable {u : Unfinished} {b : UInt8} {t bs : List UInt8} {n : Nat}

theorem completes_zero_iff (hm : u.missing = 0) : Completes u t n ↔ t = [] ∧ n = u.bits := by
  constructor
  · intro h
    cases h with
    | done => exact ⟨rfl, rfl⟩
    | more hm' => omega
  · rintro ⟨rfl, rfl⟩
    exact .done hm

theorem completes_succ_iff {m : Nat} (hm : u.missing = m + 1) :
    Completes u t n ↔ ∃ b t', t = b :: t' ∧ u.low ≤ b.toNat ∧ b.toNat ≤ u.high ∧
      Completes (u.extend b.toNat) t' n := by
  constructor
  · intro h
    cases h with
    | done hm' => omega
    | more _ hlow hhigh h => exact ⟨_, _, rfl, hlow, hhigh, h⟩
  · rintro ⟨b, t', rfl, hlow, hhigh, h⟩
    exact .more (by omega) hlow hhigh h

theorem partsFrom_extend (hm : 1 < u.missing) (hlow : u.low ≤ b.toNat) (hhigh : b.toNat ≤ u.high)
    (bs : List UInt8) : partsFrom (some u) (b :: bs) = partsFrom (some (u.extend b.toNat)) bs := by
  have hpush : u.push b.toNat = .inr (u.extend b.toNat) := if_neg (Nat.not_le_of_gt hm)
  simp [partsFrom, next, hlow, hhigh, hpush]

theorem partsFrom_last (hm : u.missing = 1) (hlow : u.low ≤ b.toNat) (hhigh : b.toNat ≤ u.high)
    (bs : List UInt8) :
    partsFrom (some u) (b :: bs) =
      .char (Char.ofNat (u.extend b.toNat).bits) :: partsFrom none bs := by
  have hpush : u.push b.toNat = .inl (.char (Char.ofNat (u.extend b.toNat).bits)) :=
    if_pos (Nat.le_of_eq hm)
  simp [partsFrom, next, hlow, hhigh, hpush]

/-- The bytes `t` that complete a character are read as it. -/
theorem partsFrom_of_completes (hm : 0 < u.missing) (h : Completes u t n) (rest : List UInt8) :
    partsFrom (some u) (t ++ rest) = .char (Char.ofNat n) :: partsFrom none rest := by
  induction h with
  | done hm' => omega
  | @more u b t n _ hlow hhigh h ih =>
    rw [List.cons_append]
    by_cases hone : u.missing = 1
    · obtain ⟨ht, hn⟩ := (completes_zero_iff (by simp [hone])).mp h
      rw [ht, hn]
      exact partsFrom_last hone hlow hhigh rest
    · rw [partsFrom_extend (by omega) hlow hhigh]
      exact ih (by rw [Unfinished.missing_extend]; omega)

/-- What becomes of an open character: a front `t` of the bytes completes it, or the byte behind `t`
does not continue it, or all bytes are read and some are missing. -/
theorem partsFrom_cases (hm : 0 < u.missing) (bs : List UInt8) :
    (∃ t n rest, bs = t ++ rest ∧ Completes u t n ∧
      partsFrom (some u) bs = .char (Char.ofNat n) :: parts rest) ∨
      (∃ t rest, bs = t ++ rest ∧
        partsFrom (some u) bs = .broken (u.read + t.length) :: parts rest) ∨
      partsFrom (some u) bs = [.cut (u.read + bs.length)] := by
  induction bs generalizing u with
  | nil => exact .inr (.inr rfl)
  | cons b bs ih =>
    by_cases hrange : u.low ≤ b.toNat ∧ b.toNat ≤ u.high
    · by_cases hone : u.missing = 1
      · have hzero : (u.extend b.toNat).missing = 0 := by rw [Unfinished.missing_extend, hone]
        have hdone := (completes_zero_iff hzero).mpr ⟨rfl, rfl⟩
        exact .inl ⟨[b], _, bs, rfl, .more hm hrange.1 hrange.2 hdone,
          partsFrom_last hone hrange.1 hrange.2 bs⟩
      · have hread (k : Nat) : (u.extend b.toNat).read + k = u.read + (k + 1) := by
          rw [Unfinished.read_extend]
          omega
        rw [partsFrom_extend (by omega) hrange.1 hrange.2]
        rcases ih (u := u.extend b.toNat) (by rw [Unfinished.missing_extend]; omega) with
          ⟨t, n, rest, rfl, ht, hparts⟩ | ⟨t, rest, rfl, hparts⟩ | hparts
        · exact .inl ⟨b :: t, n, rest, rfl, .more hm hrange.1 hrange.2 ht, hparts⟩
        · exact .inr (.inl ⟨b :: t, rest, rfl, by rw [hparts, hread, List.length_cons]⟩)
        · exact .inr (.inr (by rw [hparts, hread, List.length_cons]))
    · exact .inr (.inl ⟨[], b :: bs, rfl, by simp [parts, partsFrom, next, hrange]⟩)

/-! ## Opening bytes -/

/-- The least second byte behind `k`: what it leaves out is overlong. -/
def leastSecond (k : Nat) : Nat := if k = 0xE0 then 0xA0 else if k = 0xF0 then 0x90 else 0x80

/-- The greatest second byte behind `k`: what it leaves out is a surrogate or above the last code
point. -/
def greatestSecond (k : Nat) : Nat := if k = 0xED then 0x9F else if k = 0xF4 then 0x8F else 0xBF

variable {k : Nat}

theorem leastSecond_cases (k : Nat) :
    k = 0xE0 ∧ leastSecond k = 0xA0 ∨ k = 0xF0 ∧ leastSecond k = 0x90 ∨
      k ≠ 0xE0 ∧ k ≠ 0xF0 ∧ leastSecond k = 0x80 := by
  unfold leastSecond
  split_ifs <;> omega

theorem greatestSecond_cases (k : Nat) :
    k = 0xED ∧ greatestSecond k = 0x9F ∨ k = 0xF4 ∧ greatestSecond k = 0x8F ∨
      k ≠ 0xED ∧ k ≠ 0xF4 ∧ greatestSecond k = 0xBF := by
  unfold greatestSecond
  split_ifs <;> omega

theorem start_ascii (h : k < 0x80) : start k = .inl (.char (Char.ofNat k)) := if_pos h

theorem start_broken (h : 0x80 ≤ k) (h' : k < 0xC2 ∨ 0xF5 ≤ k) : start k = .inl (.broken 1) := by
  rcases h' with h' | h'
  · rw [start, if_neg (by omega), if_pos h']
  · rw [start, if_neg (by omega), if_neg (by omega), if_neg (by omega), if_neg (by omega),
      if_neg (by omega), if_neg (by omega), if_neg (by omega), if_neg (by omega), if_neg (by omega)]

theorem start_two (h : 0xC2 ≤ k) (h' : k < 0xE0) :
    start k = .inr ⟨k - 0xC0, 1, 1, leastSecond k, greatestSecond k⟩ := by
  rw [start, if_neg (by omega), if_neg (by omega), if_pos h', leastSecond, if_neg (by omega),
    if_neg (by omega), greatestSecond, if_neg (by omega), if_neg (by omega)]

theorem start_three (h : 0xE0 ≤ k) (h' : k < 0xF0) :
    start k = .inr ⟨k - 0xE0, 1, 2, leastSecond k, greatestSecond k⟩ := by
  rcases eq_or_ne k 0xE0 with rfl | hE0
  · rfl
  rcases eq_or_ne k 0xED with rfl | hED
  · rfl
  rw [start, if_neg (by omega), if_neg (by omega), if_neg (by omega), if_neg hE0, if_neg hED,
    if_pos h', leastSecond, if_neg hE0, if_neg (by omega), greatestSecond, if_neg hED,
    if_neg (by omega)]

theorem start_four (h : 0xF0 ≤ k) (h' : k < 0xF5) :
    start k = .inr ⟨k - 0xF0, 1, 3, leastSecond k, greatestSecond k⟩ := by
  rcases eq_or_ne k 0xF0 with rfl | hF0
  · rfl
  rcases eq_or_ne k 0xF4 with rfl | hF4
  · rfl
  rw [start, if_neg (by omega), if_neg (by omega), if_neg (by omega), if_neg (by omega),
    if_neg (by omega), if_neg (by omega), if_neg hF0, if_pos (by omega), leastSecond,
    if_neg (by omega), if_neg hF0, greatestSecond, if_neg (by omega), if_neg hF4]

/-- What a byte `k` at the start of a character can be: a character by itself, broken, or the first
of several. -/
theorem start_cases (k : Nat) :
    k < 0x80 ∧ start k = .inl (.char (Char.ofNat k)) ∨ start k = .inl (.broken 1) ∨
      0xC2 ≤ k ∧ k < 0xF5 ∧
        ∃ bits missing, start k = .inr ⟨bits, 1, missing + 1, leastSecond k, greatestSecond k⟩ := by
  rcases Nat.lt_or_ge k 0x80 with hascii | hascii
  · exact .inl ⟨hascii, start_ascii hascii⟩
  right
  by_cases hbroken : k < 0xC2 ∨ 0xF5 ≤ k
  · exact .inl (start_broken hascii hbroken)
  right
  rw [not_or, Nat.not_lt, Nat.not_le] at hbroken
  refine ⟨hbroken.1, hbroken.2, ?_⟩
  rcases Nat.lt_or_ge k 0xE0 with htwo | hge
  · exact ⟨_, _, start_two hbroken.1 htwo⟩
  rcases Nat.lt_or_ge k 0xF0 with hthree | hfour
  · exact ⟨_, _, start_three hge hthree⟩
  · exact ⟨_, _, start_four hfour hbroken.2⟩

/-- What `start` opens has one byte and is not complete, and only these bytes open a character. -/
theorem of_start (hs : start k = .inr u) :
    0 < u.missing ∧ u.read = 1 ∧ 0xC2 ≤ k ∧ k < 0xF5 := by
  rcases start_cases k with ⟨-, hk⟩ | hk | ⟨hlow, hhigh, bits, missing, hk⟩ <;> rw [hk] at hs
  · cases hs
  · cases hs
  · rw [← Sum.inr.inj hs]
    exact ⟨Nat.succ_pos _, rfl, hlow, hhigh⟩

theorem completes_one_iff (hm : u.missing = 1) :
    Completes u t n ↔ ∃ x, t = [x] ∧ u.low ≤ x.toNat ∧ x.toNat ≤ u.high ∧
      n = u.bits * 64 + (x.toNat - 0x80) := by
  rw [completes_succ_iff hm]
  refine ⟨fun ⟨x, t', ht, hlow, hhigh, h⟩ => ?_, fun ⟨x, ht, hlow, hhigh, hn⟩ => ?_⟩
  · obtain ⟨rfl, hn⟩ := (completes_zero_iff (by rw [Unfinished.missing_extend, hm])).mp h
    rw [Unfinished.bits_extend] at hn
    exact ⟨x, ht, hlow, hhigh, hn⟩
  · refine ⟨x, [], ht, hlow, hhigh, (completes_zero_iff ?_).mpr ⟨rfl, ?_⟩⟩
    · rw [Unfinished.missing_extend, hm]
    · rw [hn, Unfinished.bits_extend]

/-- A byte `b` that is the character `c` by itself encodes it. -/
theorem encodeChar_of_start {c : Char} (hs : start b.toNat = .inl (.char c)) :
    String.utf8EncodeChar c = [b] := by
  have hascii : b.toNat < 0x80 ∧ Char.ofNat b.toNat = c := by
    rcases start_cases b.toNat with ⟨hk, hk'⟩ | hk' | ⟨-, -, _, _, hk'⟩ <;> rw [hk'] at hs
    · exact ⟨hk, Part.char.inj (Sum.inl.inj hs)⟩
    · cases hs
    · cases hs
  rw [← hascii.2]
  refine encodeChar_eq (.inl (by omega)) ?_
  rw [encodeNumber, if_pos (by omega), List.map_singleton]

/-- An opening byte `b` and what completes it are the encoding of a character. The ranges of the
second byte keep its number in bounds. -/
theorem encodeChar_of_completes (hs : start b.toNat = .inr u) (h : Completes u t n) :
    String.utf8EncodeChar (Char.ofNat n) = b :: t := by
  obtain ⟨-, -, hlow, hhigh⟩ := of_start hs
  have hleast := leastSecond_cases b.toNat
  have hgreatest := greatestSecond_cases b.toNat
  -- The opening byte gives the number of bytes, and `h` gives the range of each: with these the
  -- division of `n` by 64 is arithmetic.
  rcases Nat.lt_or_ge b.toNat 0xE0 with htwo | hge
  · rw [start_two hlow htwo] at hs
    obtain rfl := Sum.inr.inj hs
    obtain ⟨x, rfl, hx, hx', hn⟩ := (completes_one_iff rfl).mp h
    simp only at hx hx' hn
    refine encodeChar_eq (.inl (by omega)) ?_
    rw [encodeNumber, if_neg (by omega), if_pos (by omega)]
    simp only [List.map_cons, List.map_nil, List.cons.injEq, and_true]
    omega
  rcases Nat.lt_or_ge b.toNat 0xF0 with hthree | hfour
  · rw [start_three hge hthree] at hs
    obtain rfl := Sum.inr.inj hs
    obtain ⟨x, t', rfl, hx, hx', h⟩ := (completes_succ_iff rfl).mp h
    obtain ⟨y, rfl, hy, hy', hn⟩ := (completes_one_iff rfl).mp h
    simp only [Unfinished.bits_extend, Unfinished.low_extend, Unfinished.high_extend]
      at hx hx' hy hy' hn
    refine encodeChar_eq (show _ ∨ _ by omega) ?_
    rw [encodeNumber, if_neg (by omega), if_neg (by omega), if_pos (by omega)]
    simp only [List.map_cons, List.map_nil, List.cons.injEq, and_true]
    omega
  · rw [start_four hfour hhigh] at hs
    obtain rfl := Sum.inr.inj hs
    obtain ⟨x, t', rfl, hx, hx', h⟩ := (completes_succ_iff rfl).mp h
    obtain ⟨y, t'', rfl, hy, hy', h⟩ := (completes_succ_iff rfl).mp h
    obtain ⟨z, rfl, hz, hz', hn⟩ := (completes_one_iff rfl).mp h
    simp only [Unfinished.bits_extend, Unfinished.low_extend, Unfinished.high_extend]
      at hx hx' hy hy' hz hz' hn
    refine encodeChar_eq (show _ ∨ _ by omega) ?_
    rw [encodeNumber, if_neg (by omega), if_neg (by omega), if_neg (by omega)]
    simp only [List.map_cons, List.map_nil, List.cons.injEq, and_true]
    omega

/-- A character `c` is encoded by one byte, or by an opening byte and what completes it. -/
theorem encodeChar_cases (c : Char) :
    (∃ b, String.utf8EncodeChar c = [b] ∧ start b.toNat = .inl (.char c)) ∨
      ∃ b t u, String.utf8EncodeChar c = b :: t ∧ start b.toNat = .inr u ∧
        Completes u t c.toNat := by
  have hvalid : c.toNat < 0xD800 ∨ 0xDFFF < c.toNat ∧ c.toNat < 0x110000 := c.valid
  have hmap := map_toNat_encodeChar c
  generalize String.utf8EncodeChar c = bs at hmap ⊢
  unfold encodeNumber at hmap
  split_ifs at hmap with hone htwo hthree
  · obtain ⟨b, rfl, hb⟩ := List.map_eq_singleton_iff.mp hmap
    refine .inl ⟨b, rfl, ?_⟩
    rw [hb, start_ascii (by omega), Char.ofNat_toNat]
  -- The longer encodings: the quotients of the number by 64 give the bytes back.
  all_goals
    obtain ⟨b, t, rfl, hb, ht⟩ := List.map_eq_cons_iff.mp hmap
    have hleast := leastSecond_cases b.toNat
    have hgreatest := greatestSecond_cases b.toNat
    right
  · obtain ⟨x, rfl, hx⟩ := List.map_eq_singleton_iff.mp ht
    refine ⟨b, _, _, rfl, start_two (by omega) (by omega), ?_⟩
    refine (completes_one_iff rfl).mpr ⟨x, rfl, ?_⟩
    simp only
    omega
  · obtain ⟨x, t, rfl, hx, ht⟩ := List.map_eq_cons_iff.mp ht
    obtain ⟨y, rfl, hy⟩ := List.map_eq_singleton_iff.mp ht
    refine ⟨b, _, _, rfl, start_three (by omega) (by omega), ?_⟩
    refine (completes_succ_iff rfl).mpr ⟨x, _, rfl, by simp only; omega, by simp only; omega, ?_⟩
    refine (completes_one_iff rfl).mpr ⟨y, rfl, ?_⟩
    simp only [Unfinished.bits_extend, Unfinished.low_extend, Unfinished.high_extend]
    omega
  · obtain ⟨x, t, rfl, hx, ht⟩ := List.map_eq_cons_iff.mp ht
    obtain ⟨y, t, rfl, hy, ht⟩ := List.map_eq_cons_iff.mp ht
    obtain ⟨z, rfl, hz⟩ := List.map_eq_singleton_iff.mp ht
    refine ⟨b, _, _, rfl, start_four (by omega) (by omega), ?_⟩
    refine (completes_succ_iff rfl).mpr ⟨x, _, rfl, by simp only; omega, by simp only; omega, ?_⟩
    refine (completes_succ_iff rfl).mpr ⟨y, _, rfl, ?_, ?_, ?_⟩
    · rw [Unfinished.low_extend]
      omega
    · rw [Unfinished.high_extend]
      omega
    refine (completes_one_iff rfl).mpr ⟨z, rfl, ?_⟩
    simp only [Unfinished.bits_extend, Unfinished.low_extend, Unfinished.high_extend]
    omega

/-! ## Well-formed bytes -/

theorem parts_encodeChar_append (c : Char) (bs : List UInt8) :
    parts (String.utf8EncodeChar c ++ bs) = .char c :: parts bs := by
  obtain ⟨b, hc, hs⟩ | ⟨b, t, u, hc, hs, h⟩ := encodeChar_cases c
  · simp [hc, parts, partsFrom, next, hs]
  · have hopen : parts (b :: t ++ bs) = partsFrom (some u) (t ++ bs) := by
      simp [parts, partsFrom, next, hs]
    rw [hc, hopen, partsFrom_of_completes (of_start hs).1 h, Char.ofNat_toNat, parts]

theorem parts_encode (s : String) : parts (encode s) = s.toList.map .char := by
  rw [encode_eq_flatMap]
  induction s.toList with
  | nil => rfl
  | cons c cs ih => rw [List.flatMap_cons, parts_encodeChar_append, ih, List.map_cons]

theorem firstError_eq_none_iff {index : Nat} {ps : List Part} :
    firstError index ps = none ↔ ∀ p ∈ ps, ∃ c, p = .char c := by
  induction ps generalizing index with
  | nil => simp [firstError]
  | cons p ps ih => cases p <;> simp [firstError, ih]

/-- The first part of some bytes stands for a front `t` of them. If it is a character, `t` is its
encoding. -/
theorem exists_parts_cons (b : UInt8) (bs : List UInt8) :
    ∃ p t rest, b :: bs = t ++ rest ∧ 0 < t.length ∧ p.size = t.length ∧
      (∀ c, p = .char c → String.utf8EncodeChar c = t) ∧ parts (b :: bs) = p :: parts rest := by
  have character : ∀ {c : Char} {t : List UInt8}, String.utf8EncodeChar c = t →
      0 < t.length ∧ (Part.char c).size = t.length ∧
        ∀ d, Part.char c = .char d → String.utf8EncodeChar d = t := by
    rintro c t rfl
    rw [String.length_utf8EncodeChar]
    exact ⟨c.utf8Size_pos, rfl, by rintro d ⟨⟩; rfl⟩
  cases hs : start b.toNat with
  | inl p =>
    have hparts : parts (b :: bs) = p :: parts bs := by simp [parts, partsFrom, next, hs]
    refine ⟨p, [b], bs, rfl, Nat.one_pos, ?_⟩
    rcases start_cases b.toNat with ⟨-, hk⟩ | hk | ⟨-, -, _, _, hk⟩ <;> rw [hk] at hs
    · obtain rfl := Sum.inl.inj hs
      obtain ⟨-, hsize, hchar⟩ := character (encodeChar_of_start hk)
      exact ⟨hsize, hchar, hparts⟩
    · obtain rfl := Sum.inl.inj hs
      exact ⟨rfl, by rintro c ⟨⟩, hparts⟩
    · cases hs
  | inr u =>
    obtain ⟨hm, hread, -⟩ := of_start hs
    have hopen : parts (b :: bs) = partsFrom (some u) bs := by simp [parts, partsFrom, next, hs]
    rw [hopen]
    -- The opening byte is completed, or the bytes go wrong on the way, or they end too early.
    rcases partsFrom_cases hm bs with
      ⟨t, n, rest, rfl, ht, hparts⟩ | ⟨t, rest, rfl, hparts⟩ | hparts
    · obtain ⟨hpos, hsize, hchar⟩ := character (encodeChar_of_completes hs ht)
      exact ⟨_, b :: t, rest, rfl, hpos, hsize, hchar, hparts⟩
    · refine ⟨_, b :: t, rest, rfl, Nat.succ_pos _, ?_, by rintro c ⟨⟩, hparts⟩
      rw [Part.size, hread, List.length_cons, Nat.add_comm]
    · refine ⟨_, b :: bs, [], by simp, Nat.succ_pos _, ?_, by rintro c ⟨⟩, hparts⟩
      rw [Part.size, hread, List.length_cons, Nat.add_comm]

/-- Bytes of which every one of the `parts` is a character encode a text, by induction on their
number. -/
theorem exists_encode_of_parts (bs : List UInt8) (h : ∀ p ∈ parts bs, ∃ c, p = .char c) :
    ∃ s, encode s = bs := by
  induction hn : bs.length using Nat.strongRecOn generalizing bs with
  | ind n ih =>
    cases bs with
    | nil => exact ⟨"", by rw [encode_eq_flatMap]; rfl⟩
    | cons b bs =>
      obtain ⟨p, t, rest, hbs, hpos, -, hchar, hparts⟩ := exists_parts_cons b bs
      rw [hparts] at h
      obtain ⟨c, rfl⟩ := h p List.mem_cons_self
      have hlt : rest.length < n := by
        rw [← hn, hbs, List.length_append]
        omega
      obtain ⟨s, hs⟩ := ih rest.length hlt rest (fun p hp => h p (.tail _ hp)) rfl
      refine ⟨.ofList [c] ++ s, ?_⟩
      rw [encode_append, hs, hbs, ← hchar c rfl, encode_eq_flatMap]
      simp

/-- **Check.** It finds nothing wrong with `bs` exactly if they are the encoding of a text. -/
theorem check_eq_none_iff {bs : List UInt8} : check bs = none ↔ ∃ s, encode s = bs := by
  rw [check, firstError_eq_none_iff]
  refine ⟨exists_encode_of_parts bs, ?_⟩
  rintro ⟨s, rfl⟩
  simp [parts_encode]

/-! ## ASCII characters -/

/-- A byte `x` below 128 is a character by itself. -/
theorem toNat_of_mem_encodeChar {c : Char} {x : UInt8} (hx : x.toNat < 0x80)
    (h : x ∈ String.utf8EncodeChar c) : c.toNat = x.toNat := by
  have hmem : x.toNat ∈ encodeNumber c.toNat := by
    rw [← map_toNat_encodeChar]
    exact List.mem_map_of_mem h
  unfold encodeNumber at hmem
  split_ifs at hmem <;> simp only [List.mem_cons, List.not_mem_nil, or_false] at hmem <;> omega

/-- So `x` stands in the encoding of a text only for its character. -/
theorem ofNat_mem_of_mem_encode {s : String} {x : UInt8} (hx : x.toNat < 0x80)
    (h : x ∈ encode s) : Char.ofNat x.toNat ∈ s.toList := by
  rw [encode_eq_flatMap] at h
  obtain ⟨c, hc, hmem⟩ := List.mem_flatMap.mp h
  rwa [← toNat_of_mem_encodeChar hx hmem, Char.ofNat_toNat]

/-- The last byte `x` of a longer encoding is no ASCII character. -/
theorem eq_nil_of_encodeChar_concat {c : Char} {x : UInt8} (hx : x.toNat < 0x80)
    (hc : String.utf8EncodeChar c = bs ++ [x]) : bs = [] := by
  have hmap := map_toNat_encodeChar c
  rw [hc, List.map_append, encodeNumber] at hmap
  have hlast := congrArg List.getLast? hmap
  split_ifs at hmap hlast
  · simpa using congrArg List.length hmap
  all_goals
    simp only [List.map_cons, List.map_nil, List.getLast?_append, List.getLast?_cons_cons,
      List.getLast?_singleton, Option.some_or, Option.some.injEq] at hlast
    omega

/-- An ASCII character `x` behind some bytes does not change whether they are well formed. -/
theorem exists_encode_concat_iff {x : UInt8} (hx : x.toNat < 0x80) :
    (∃ s, encode s = bs ++ [x]) ↔ ∃ s, encode s = bs := by
  constructor
  · rintro ⟨s, hs⟩
    rw [encode_eq_flatMap] at hs
    rcases List.eq_nil_or_concat' s.toList with hnil | ⟨cs, c, hcs⟩
    · simp [hnil] at hs
    rw [hcs, List.flatMap_append, List.flatMap_singleton] at hs
    rcases List.eq_nil_or_concat' (String.utf8EncodeChar c) with hnil | ⟨init, y, hc⟩
    · exact absurd hnil (String.utf8EncodeChar_ne_nil)
    rw [hc, ← List.append_assoc] at hs
    obtain ⟨hinit, hy⟩ := List.append_inj' hs rfl
    obtain rfl : y = x := List.singleton_inj.mp hy
    rw [eq_nil_of_encodeChar_concat hx hc, List.append_nil] at hinit
    exact ⟨.ofList cs, by simpa [encode_eq_flatMap] using hinit⟩
  · rintro ⟨s, rfl⟩
    refine ⟨s ++ .ofList [Char.ofNat x.toNat], ?_⟩
    have hc := encodeChar_of_start (start_ascii hx)
    simp [encode_eq_flatMap, hc]

end Utf8

end Handoff
