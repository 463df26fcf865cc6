import Handoff.Proofs.Descriptor.Members

/-!
# Descriptors are read by their grammar

* `readElements_sound`, `readElements_complete`: the list of the three values.
* `parse_eq_ok_iff`: a text is parsed exactly where it spells the descriptor that is parsed.
* `decode_iff_spells`: what decoding makes of any text, by the grammar.
-/

namespace Handoff

namespace Descriptor

open Json

variable {s t r w : List Char}

/-! ## Lists -/

theorem nextElement_first_sound {u : Unit} (h : nextElement 0 s = .ok (u, r)) :
    ∃ w, Blanks w ∧ s = w ++ r := by
  unfold nextElement at h
  split at h
  · cases h
  rename_i hs
  split at h
  · cases h
  · cases h
    exact blanks_of_skipBlanks hs

theorem nextElement_next_sound {count : Nat} {u : Unit}
    (h : nextElement (count + 1) s = .ok (u, r)) :
    ∃ w w', Blanks w ∧ Blanks w' ∧ s = w ++ ',' :: (w' ++ r) := by
  unfold nextElement at h
  split at h
  · cases h
  rename_i hs
  obtain ⟨w, hw, rfl⟩ := blanks_of_skipBlanks hs
  split at h
  · cases h
  rw [if_neg (Nat.succ_ne_zero count)] at h
  split at h
  · rename_i hc
    split at h
    · cases h
    rename_i ht
    obtain ⟨w', hw', rfl⟩ := blanks_of_skipBlanks ht
    split at h
    · cases h
    · cases h
      exact ⟨w, w', hw, hw', by rw [hc]⟩
  · cases h

/-- The value of a member starts with no blank and does not close a list. -/
theorem Member.Value.eq_cons {m : Member} {v : List Char} (h : m.Value v) :
    ∃ c u, v = c :: u ∧ isBlank c = false ∧ c ≠ ']' := by
  cases h with
  | address => exact ⟨_, _, rfl, by decide, by decide⟩
  | slot ht =>
    obtain ⟨_, hm⟩ := ht.isNumeral
    obtain ⟨c, u, rfl, hc, hclose⟩ := (Derives.number hm).eq_cons
    exact ⟨c, u, rfl, hc, hclose .list⟩
  | debugName => exact ⟨_, _, rfl, by decide, by decide⟩
  | other _ hv =>
    obtain ⟨c, u, rfl, hc, hclose⟩ := hv.eq_cons
    exact ⟨c, u, rfl, hc, hclose .list⟩

theorem nextElement_first {m : Member} {v : List Char} (hw : Blanks w) (hv : m.Value v)
    (r : List Char) : nextElement 0 (w ++ (v ++ r)) = .ok ((), v ++ r) := by
  obtain ⟨c, u, rfl, hc, hclose⟩ := hv.eq_cons
  simp [nextElement, skipBlanks_append hw, skipBlanks_cons hc, hclose]

theorem nextElement_next {m : Member} {v w' : List Char} (count : Nat) (hw : Blanks w)
    (hw' : Blanks w') (hv : m.Value v) (r : List Char) :
    nextElement (count + 1) (w ++ ',' :: (w' ++ (v ++ r))) = .ok ((), v ++ r) := by
  obtain ⟨c, u, rfl, hc, hclose⟩ := hv.eq_cons
  simp [nextElement, skipBlanks_append hw, skipBlanks_append hw', skipBlanks_cons hc, hclose,
    skipBlanks_cons (show isBlank ',' = false by decide)]

theorem endList_sound {u : Unit} (h : endList s = .ok (u, r)) :
    ∃ w, Blanks w ∧ s = w ++ ']' :: r := by
  unfold endList at h
  split at h
  · cases h
  rename_i hs
  split at h
  · rename_i hc
    cases h
    exact blanks_of_skipBlanks (hc ▸ hs)
  split at h
  · split at h <;> cases h
  · cases h

theorem endList_complete (hw : Blanks w) (r : List Char) :
    endList (w ++ ']' :: r) = .ok ((), r) := by
  simp [endList, skipBlanks_append hw, skipBlanks_cons (show isBlank ']' = false by decide)]

/-- What is read as the elements of a list, and its end, is a spelling of the three values of
`x`. -/
theorem readElements_sound {x : Descriptor} (h : readElements s = .ok (x, r)) :
    ∃ a n b, (Member.address x.address.toList).Padded a ∧ (Member.slot x.slot).Padded n ∧
      (Member.debugName x.debugName.toList).Padded b ∧
      s = a ++ ',' :: (n ++ ',' :: (b ++ ']' :: r)) := by
  unfold readElements at h
  simp only [bind, Except.bind, pure, Except.pure] at h
  split at h
  · cases h
  rename_i h₁
  split at h
  · cases h
  rename_i a ha
  split at h
  · cases h
  rename_i h₂
  split at h
  · cases h
  rename_i n hn
  split at h
  · cases h
  rename_i h₃
  split at h
  · cases h
  rename_i b hb
  split at h
  · cases h
  rename_i h₄
  cases h
  -- Every element takes the blanks around it; those behind it are seen only by the next step.
  obtain ⟨w₁, hw₁, rfl⟩ := nextElement_first_sound h₁
  obtain ⟨u₁, t₁, hu₁, ht₁, hs₁⟩ := readTextValue_eq_ok_iff.mp ha
  obtain ⟨w₂, w₂', hw₂, hw₂', hs₂⟩ := nextElement_next_sound h₂
  obtain ⟨u₂, t₂, hu₂, ht₂, hs₃⟩ := readSlotValue_sound hn
  obtain ⟨w₃, w₃', hw₃, hw₃', hs₄⟩ := nextElement_next_sound h₃
  obtain ⟨u₃, t₃, hu₃, ht₃, hs₅⟩ := readTextValue_eq_ok_iff.mp hb
  obtain ⟨w₄, hw₄, hs₆⟩ := endList_sound h₄
  have haddress : (Member.address (String.ofList a.1).toList).Value ('"' :: (t₁ ++ ['"'])) := by
    rw [String.toList_ofList]
    exact .address ht₁
  have hname : (Member.debugName (String.ofList b.1).toList).Value ('"' :: (t₃ ++ ['"'])) := by
    rw [String.toList_ofList]
    exact .debugName ht₃
  exact ⟨_, _, _, .mk (hw₁.append hu₁) haddress hw₂, .mk (hw₂'.append hu₂) ht₂ hw₃,
    .mk (hw₃'.append hu₃) hname hw₄, by simp [hs₁, hs₂, hs₃, hs₄, hs₅, hs₆]⟩

/-- The spelling of the three values of `x` and the end of a list are read. -/
theorem readElements_complete {x : Descriptor} {a b : List Char} {t : List Char}
    (ha : (Member.address x.address.toList).Padded a) (ht : (Member.slot x.slot).Padded t)
    (hb : (Member.debugName x.debugName.toList).Padded b) (r : List Char) :
    readElements (a ++ ',' :: (t ++ ',' :: (b ++ ']' :: r))) = .ok (x, r) := by
  obtain @⟨w₁, a, w₂, hw₁, ha, hw₂⟩ := ha
  obtain @⟨w₃, t, w₄, hw₃, ht, hw₄⟩ := ht
  obtain @⟨w₅, b, w₆, hw₅, hb, hw₆⟩ := hb
  have haddress : ∀ r, readTextValue (a ++ r) = .ok (x.address.toList, r) := by
    cases ha with
    | address hbody => exact fun r => readTextValue_eq_ok_iff.mpr ⟨[], _, .nil, hbody, by simp⟩
  have hslot : ∀ r, EndsNumeral r → readSlotValue (t ++ r) = .ok (x.slot, r) :=
    fun r hr => readSlotValue_complete .nil ht hr
  have hname : ∀ r, readTextValue (b ++ r) = .ok (x.debugName.toList, r) := by
    cases hb with
    | debugName hbody => exact fun r => readTextValue_eq_ok_iff.mpr ⟨[], _, .nil, hbody, by simp⟩
  -- A numeral has no end of its own: the blanks or the comma behind the slot end it.
  have hcomma : ∀ r, EndsNumeral (w₄ ++ ',' :: r) := fun r => .blanks hw₄ (.cons (by decide) r)
  simp only [readElements, bind, Except.bind, pure, Except.pure, List.append_assoc,
    nextElement_first hw₁ ha, haddress, nextElement_next 0 hw₂ hw₃ ht, hslot _ (hcomma _),
    nextElement_next 1 hw₄ hw₅ hb, hname, endList_complete hw₆, String.ofList_toList]

/-! ## Whole texts -/

theorem readValue_sound {x : Descriptor} (h : readValue s = .ok (x, r)) :
    ∃ w t, Blanks w ∧ Form t x ∧ s = w ++ (t ++ r) := by
  unfold readValue at h
  split at h
  · cases h
  rename_i hs
  obtain ⟨w, hw, rfl⟩ := blanks_of_skipBlanks hs
  split at h
  · rename_i hc
    obtain ⟨ms, t, hrest, hcompletes, rfl⟩ := Draft.readMembers_sound h
    have hfields := Draft.completes_empty_iff.mp hcompletes
    cases hrest with
    | blanks => cases hfields.slot
    | members ht => exact ⟨w, _, hw, .object ht hfields, by simp [hc]⟩
  split at h
  · rename_i hc
    obtain ⟨a, n, b, ha, hn, hb, rfl⟩ := readElements_sound h
    exact ⟨w, _, hw, .list ha hn hb, by simp [hc]⟩
  · cases h

theorem readValue_complete {x : Descriptor} (hw : Blanks w) (ht : Form t x) (r : List Char) :
    readValue (w ++ (t ++ r)) = .ok (x, r) := by
  cases ht with
  | object hmembers hfields =>
    have hread := (Draft.readMembers_complete hmembers (Draft.completes_empty_iff.mpr hfields) r).1
    simp [readValue, skipBlanks_append hw, skipBlanks_cons (show isBlank '\x7b' = false by decide),
      hread]
  | list ha hn hb =>
    simp [readValue, skipBlanks_append hw, skipBlanks_cons (show isBlank '[' = false by decide),
      readElements_complete ha hn hb]

/-- **Parsing.** A text is parsed exactly where it `Spells` the descriptor `x` that is parsed. -/
theorem parse_eq_ok_iff {x : Descriptor} : parse s = .ok x ↔ Spells s x := by
  constructor
  · intro h
    unfold parse at h
    split at h
    · cases h
    · rename_i hvalue
      obtain ⟨w, t, hw, ht, rfl⟩ := readValue_sound hvalue
      split at h
      · rename_i hend
        obtain ⟨w', hw', rfl⟩ := blanks_of_skipBlanks hend
        cases h
        rw [List.append_nil]
        exact .mk hw ht hw'
      · cases h
  · rintro @⟨w, t, w', _, hw, ht, hw'⟩
    have hend : skipBlanks w' = [] := by
      rw [← List.append_nil w', skipBlanks_append hw']
      rfl
    simp [parse, readValue_complete hw ht, hend]

/-- A text stands for one descriptor at most, as `parse` is a function. -/
theorem Spells.unique {x y : Descriptor} (hx : Spells s x) (hy : Spells s y) : x = y :=
  Except.ok.inj ((parse_eq_ok_iff.mpr hx).symm.trans (parse_eq_ok_iff.mpr hy))

/-! ## Decoding -/

variable {raw : String} {x : Descriptor}

/-- A text `raw` that stands for `x` is decoded to it, unless its slot is reserved. -/
theorem decode_of_spells (h : Spells raw.toList x) :
    decode raw = if x.slot < 3 then .error (.reservedSlot x.slot) else .ok x := by
  rw [decode, parse_eq_ok_iff.mpr h]
  rfl

/-- A text `raw` that is decoded stands for the descriptor, whose slot is not reserved. -/
theorem spells_of_decode (h : decode raw = .ok x) : Spells raw.toList x ∧ 3 ≤ x.slot := by
  unfold decode at h
  split at h
  · cases h
  · rename_i hp
    split at h
    · cases h
    · rename_i hslot
      cases h
      exact ⟨parse_eq_ok_iff.mp hp, Int.not_lt.mp hslot⟩

/-- A text that stands for no descriptor is `malformed`, with the message of its fault. -/
theorem decode_of_not_spells (h : ¬ ∃ x, Spells raw.toList x) :
    ∃ m, decode raw = .error (.malformed m) := by
  cases hp : parse raw.toList with
  | ok x => exact (h ⟨x, parse_eq_ok_iff.mp hp⟩).elim
  | error f => exact ⟨f.message raw.toList, by simp only [decode, hp]⟩

/-- **Decoding by the grammar.** A text is parsed exactly where it `Spells` a descriptor. It is then
decoded to this descriptor from slot three on and refused as a `reservedSlot` below, and every other
text is `malformed`. -/
theorem decode_iff_spells (raw : String) :
    (∀ x, parse raw.toList = .ok x ↔ Spells raw.toList x) ∧
    (∀ x, decode raw = .ok x ↔ Spells raw.toList x ∧ 3 ≤ x.slot) ∧
    (∀ n, decode raw = .error (.reservedSlot n) ↔ n < 3 ∧ ∃ x, Spells raw.toList x ∧ x.slot = n) ∧
    ((∃ m, decode raw = .error (.malformed m)) ↔ ¬ ∃ x, Spells raw.toList x) := by
  refine ⟨fun x => parse_eq_ok_iff, ?_⟩
  -- If the text stands for `y` it stands for nothing else, and the slot of `y` decides the rest.
  by_cases h : ∃ x, Spells raw.toList x
  · obtain ⟨y, hy⟩ := h
    have unique : ∀ x, Spells raw.toList x ↔ x = y :=
      fun x => ⟨fun hx => hx.unique hy, fun hx => hx ▸ hy⟩
    rw [decode_of_spells hy]
    simp only [unique]
    by_cases hslot : y.slot < 3
    · rw [if_pos hslot]
      refine ⟨fun x => ?_, fun n => ?_, ?_⟩
      · refine ⟨fun hx => (by cases hx), ?_⟩
        rintro ⟨rfl, hx⟩
        omega
      · constructor
        · intro hn
          cases hn
          exact ⟨hslot, y, rfl, rfl⟩
        · rintro ⟨-, x, rfl, rfl⟩
          rfl
      · simp
    · rw [if_neg hslot]
      refine ⟨fun x => ?_, fun n => ?_, ?_⟩
      · constructor
        · intro hx
          cases hx
          exact ⟨rfl, by omega⟩
        · rintro ⟨rfl, -⟩
          rfl
      · refine ⟨fun hn => (by cases hn), ?_⟩
        rintro ⟨hn, x, rfl, rfl⟩
        exact (hslot hn).elim
      · simp
  · obtain ⟨m, hm⟩ := decode_of_not_spells h
    have none : ∀ x, ¬ Spells raw.toList x := fun x hx => h ⟨x, hx⟩
    simp [hm, none]

end Descriptor

end Handoff
