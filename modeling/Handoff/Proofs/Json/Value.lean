import Handoff.Proofs.Json.Number
import Handoff.Proofs.Json.Quoted

/-!
# Skipped values by their grammar

The machine skips a value with a stack of open frames. For completeness a derivation is followed,
with what is on the stack and what comes behind left free (`Derives.skips`). For soundness it is
written down what the machine can do in a step (`skipOpen_step`, `skipItems_step`) and what a stack
still takes of the text (`Closes`), and every run that ends is shown to have a derivation behind it
(`skip_sound`).

* `skipValue_sound`, `skipValue_complete`: a value of any depth is skipped exactly where it is one.
-/

namespace Handoff

namespace Json

variable {s t r v w l : List Char} {f : Frame} {stack : List Frame}

/-! ## Values without items -/

theorem readName_eq_ok_iff {name : List Char} {u : Unit} :
    readName name s = .ok (u, r) ↔ s = name ++ r := by
  induction name generalizing s with
  | nil => simp [readName]
  | cons c name ih =>
    cases s with
    | nil => simp [readName]
    | cons d s =>
      by_cases h : d = c
      · simp [readName, h, ih]
      · simp [readName, h]

/-- A value without items opens no frame, so `o` is `none`. -/
theorem eq_of_leaf {x : Reading Unit} {o : Option Frame}
    (h : (match x with
      | .error f => .error f
      | .ok (_, r) => .ok (none, r)) = (.ok (o, r) : Reading (Option Frame))) :
    o = none ∧ x = .ok ((), r) := by
  split at h <;> cases h
  exact ⟨rfl, rfl⟩

/-- What `skipSimple` skips at once is a value without items, or the opening of a frame `f`. -/
theorem skipSimple_sound {o : Option Frame} (h : skipSimple s = .ok (o, r)) :
    (o = none ∧ ∃ v, Derives .value v ∧ s = v ++ r) ∨ ∃ f, o = some f ∧ s = f.opening :: r := by
  unfold skipSimple at h
  split at h
  · cases h
  · rename_i c u
    have name : ∀ {n : List Char}, c :: n ∈ ["null".toList, "true".toList, "false".toList] →
        readName n u = .ok ((), r) → ∃ v, Derives .value v ∧ c :: u = v ++ r :=
      fun hn hx => ⟨_, .name hn, congrArg _ (readName_eq_ok_iff.mp hx)⟩
    split at h
    · rename_i hc
      subst hc
      exact .inl ⟨(eq_of_leaf h).1, name (by decide) (eq_of_leaf h).2⟩
    split at h
    · rename_i hc
      subst hc
      exact .inl ⟨(eq_of_leaf h).1, name (by decide) (eq_of_leaf h).2⟩
    split at h
    · rename_i hc
      subst hc
      exact .inl ⟨(eq_of_leaf h).1, name (by decide) (eq_of_leaf h).2⟩
    split at h
    · rename_i hc
      subst hc
      obtain ⟨b, hb, rfl⟩ := skipText_eq_ok_iff.mp (eq_of_leaf h).2
      exact .inl ⟨(eq_of_leaf h).1, _, .text hb, by simp⟩
    split at h
    · rename_i hc
      cases h
      exact .inr ⟨.list, rfl, by rw [hc]; rfl⟩
    split at h
    · rename_i hc
      cases h
      exact .inr ⟨.map, rfl, by rw [hc]; rfl⟩
    split at h
    · obtain ⟨v, m, hv, hs⟩ := skipNumber_sound (eq_of_leaf h).2
      exact .inl ⟨(eq_of_leaf h).1, v, .number hv, hs⟩
    · cases h

theorem skipSimple_name (h : t ∈ ["null".toList, "true".toList, "false".toList]) :
    skipSimple (t ++ r) = .ok (none, r) := by
  simp only [List.mem_cons, List.not_mem_nil, or_false] at h
  rcases h with rfl | rfl | rfl <;> simp [skipSimple, readName]

theorem skipSimple_text (h : LooseBody t) :
    skipSimple ('"' :: (t ++ '"' :: r)) = .ok (none, r) := by
  have ht : skipText (t ++ '"' :: r) = .ok ((), r) := skipText_eq_ok_iff.mpr ⟨t, h, rfl⟩
  simp [skipSimple, ht]

theorem skipSimple_number {m : Numeral} (h : IsNumeral t m) (hr : EndsNumeral r) :
    skipSimple (t ++ r) = .ok (none, r) := by
  have hskip := skipNumber_complete h hr
  obtain ⟨c, u, rfl, hc⟩ := h.eq_cons
  have hne : ∀ {d : Char}, d ≠ '-' → isDigit d = false → c ≠ d := by
    rintro d h₁ h₂ rfl
    simp [h₁, h₂] at hc
  rw [List.cons_append] at hskip ⊢
  simp only [skipSimple, hne (d := 'n') (by decide) (by decide),
    hne (d := 't') (by decide) (by decide), hne (d := 'f') (by decide) (by decide),
    hne (d := '"') (by decide) (by decide), hne (d := '[') (by decide) (by decide),
    hne (d := '\x7b') (by decide) (by decide), if_false, if_pos hc, hskip]

theorem skipSimple_opening (f : Frame) (r : List Char) :
    skipSimple (f.opening :: r) = .ok (some f, r) := by
  cases f <;> simp [skipSimple, Frame.opening]

/-- A value `v` starts with no blank and closes no frame. -/
theorem Derives.eq_cons (h : Derives .value v) :
    ∃ c u, v = c :: u ∧ isBlank c = false ∧ ∀ f : Frame, c ≠ f.close := by
  have starts : ∀ {c : Char} {u : List Char}, isBlank c = false → c ≠ ']' → c ≠ '\x7d' →
      ∃ d t, c :: u = d :: t ∧ isBlank d = false ∧ ∀ f : Frame, d ≠ f.close := by
    intro c u hb h₁ h₂
    refine ⟨c, u, rfl, hb, fun f => ?_⟩
    cases f
    · exact h₁
    · exact h₂
  cases h with
  | name h =>
    simp only [List.mem_cons, List.not_mem_nil, or_false] at h
    rcases h with rfl | rfl | rfl <;> exact starts (by decide) (by decide) (by decide)
  | text => exact starts (by decide) (by decide) (by decide)
  | number h =>
    obtain ⟨c, u, rfl, hc⟩ := h.eq_cons
    refine starts (isBlank_of_starts hc) ?_ ?_
    all_goals
      rintro rfl
      exact absurd hc (by decide)
  | empty f => cases f <;> exact starts (by decide) (by decide) (by decide)
  | @filled t f => cases f <;> exact starts (by decide) (by decide) (by decide)

/-! ## Keys -/

theorem skipKey_sound {u : Unit} (h : skipKey s = .ok (u, r)) :
    ∃ w l, Blanks w ∧ Lead .map l ∧ s = w ++ (l ++ r) := by
  unfold skipKey at h
  split at h
  · cases h
  · rename_i hs
    obtain ⟨w, hw, rfl⟩ := blanks_of_skipBlanks hs
    split at h
    · rename_i hc
      subst hc
      split at h
      · cases h
      · rename_i ht
        obtain ⟨k, hk, rfl⟩ := skipText_eq_ok_iff.mp ht
        split at h
        · cases h
        · rename_i hs'
          obtain ⟨w', hw', rfl⟩ := blanks_of_skipBlanks hs'
          split at h
          · rename_i hd
            cases h
            subst hd
            exact ⟨w, _, hw, .map hk hw', by simp⟩
          · cases h
    · cases h

/-- What comes before the value of an item is a `Lead`, with the blanks in front of it. -/
theorem Frame.skipLead_sound {u : Unit} (h : f.skipLead s = .ok (u, r)) :
    ∃ w l, Blanks w ∧ Lead f l ∧ s = w ++ (l ++ r) := by
  cases f with
  | list => cases h; exact ⟨[], [], .nil, .list, rfl⟩
  | map => exact skipKey_sound h

theorem skipKey_complete (hw : Blanks w) (h : Lead .map l) :
    skipKey (w ++ (l ++ r)) = .ok ((), r) := by
  cases h with
  | @map k w' hk hw' =>
    have ht : skipText (k ++ '"' :: (w' ++ ':' :: r)) = .ok ((), w' ++ ':' :: r) :=
      skipText_eq_ok_iff.mpr ⟨k, hk, rfl⟩
    have hcolon : skipBlanks (w' ++ ':' :: r) = ':' :: r := by
      rw [skipBlanks_append hw', skipBlanks_cons (by decide)]
    simp only [skipKey, skipBlanks_append hw, List.cons_append, List.append_assoc, List.nil_append,
      skipBlanks_cons (show isBlank '"' = false by decide), if_true, ht, hcolon]

/-- A `Lead` is skipped; in a list the blanks in front of it are left. -/
theorem Frame.skipLead_complete (hw : Blanks w) (h : Lead f l) :
    ∃ w', Blanks w' ∧ ∀ r, f.skipLead (w ++ (l ++ r)) = .ok ((), w' ++ r) := by
  cases f with
  | list => cases h; exact ⟨w, hw, fun r => rfl⟩
  | map => exact ⟨[], .nil, fun r => skipKey_complete hw h⟩

/-! ## The steps of the machine -/

/-- Behind a value without items the machine goes on with `skipItems`. -/
theorem skipOpen_of_simple (h : skipSimple (skipBlanks s) = .ok (none, r)) :
    skipOpen stack s = skipItems stack false r := by
  rw [skipOpen]
  split
  · rename_i h'; rw [h] at h'; cases h'
  · rename_i h'; rw [h] at h'; cases h'; rfl
  · rename_i h'; rw [h] at h'; cases h'

/-- A frame `f` that is opened is put on the stack, and its first item is due. -/
theorem skipOpen_of_frame (h : skipSimple (skipBlanks s) = .ok (some f, r)) :
    skipOpen stack s = skipItems (f :: stack) true r := by
  rw [skipOpen]
  split
  · rename_i h'; rw [h] at h'; cases h'
  · rename_i h'; rw [h] at h'; cases h'
  · rename_i h'; rw [h] at h'; cases h'; rfl

/-- The innermost frame `f` is closed and taken off the `stack`. -/
theorem skipItems_close {first : Bool} (hw : Blanks w) :
    skipItems (f :: stack) first (w ++ f.close :: r) = skipItems stack false r := by
  have hblanks : skipBlanks (w ++ f.close :: r) = f.close :: r := by
    rw [skipBlanks_append hw, skipBlanks_cons (by cases f <;> decide)]
  rw [skipItems]
  split
  · rename_i h; rw [hblanks] at h; cases h
  · rename_i h; rw [hblanks] at h; cases h; rw [if_pos rfl]

/-- The first item of the frame `f` is due, behind its lead. -/
theorem skipItems_first {c : Char} (hs : skipBlanks s = c :: t) (hc : c ≠ f.close)
    (hl : f.skipLead (c :: t) = .ok ((), r)) :
    skipItems (f :: stack) true s = skipOpen (f :: stack) r := by
  rw [skipItems]
  split
  · rename_i h; rw [hs] at h; cases h
  · rename_i h
    rw [hs] at h
    cases h
    rw [if_neg hc, if_pos rfl]
    split
    · rename_i h; rw [hl] at h; cases h
    · rename_i h; rw [hl] at h; cases h; rfl

/-- The next item of the frame `f` is due behind a comma and its lead. -/
theorem skipItems_next (hw : Blanks w) (hl : f.skipLead t = .ok ((), r)) :
    skipItems (f :: stack) false (w ++ ',' :: t) = skipOpen (f :: stack) r := by
  have hblanks : skipBlanks (w ++ ',' :: t) = ',' :: t := by
    rw [skipBlanks_append hw, skipBlanks_cons (by decide)]
  rw [skipItems]
  split
  · rename_i h; rw [hblanks] at h; cases h
  · rename_i h
    rw [hblanks] at h
    cases h
    rw [if_neg (by cases f <;> decide), if_neg (by decide), if_pos rfl]
    split
    · rename_i h; rw [hl] at h; cases h
    · rename_i h; rw [hl] at h; cases h; rfl

/-! ## Completeness -/

/-- Where the value `v` of the first item stands, the machine is at `skipOpen`. -/
theorem skipItems_first_item {w' : List Char} (stack : List Frame) (hw : Blanks w) (hl : Lead f l)
    (hw' : Blanks w') (hv : Derives .value v) :
    ∃ w'', Blanks w'' ∧ ∀ r,
      skipItems (f :: stack) true (w ++ (l ++ (w' ++ (v ++ r)))) =
        skipOpen (f :: stack) (w'' ++ (v ++ r)) := by
  cases hl with
  | list =>
    obtain ⟨c, u, rfl, hc, hclose⟩ := hv.eq_cons
    refine ⟨[], .nil, fun r => ?_⟩
    refine skipItems_first (c := c) (t := u ++ r) ?_ (hclose .list) rfl
    rw [skipBlanks_append hw, List.nil_append, skipBlanks_append hw', List.cons_append,
      skipBlanks_cons hc]
  | @map k w₁ hk hw₁ =>
    refine ⟨w', hw', fun r => ?_⟩
    have hlead : Frame.map.skipLead
        ('"' :: (k ++ '"' :: (w₁ ++ [':']) ++ (w' ++ (v ++ r)))) = .ok ((), w' ++ (v ++ r)) :=
      skipKey_complete .nil (.map hk hw₁)
    refine skipItems_first ?_ (by decide) hlead
    rw [skipBlanks_append hw]
    exact skipBlanks_cons (by decide)

/-- So it is where the value of a further item stands, behind the comma and the lead `l`. -/
theorem skipItems_next_item {w' : List Char} (stack : List Frame) (hw : Blanks w) (hl : Lead f l)
    (hw' : Blanks w') :
    ∃ w'', Blanks w'' ∧ ∀ u r, Blanks u →
      skipItems (f :: stack) false (u ++ ',' :: (w ++ (l ++ (w' ++ r)))) =
        skipOpen (f :: stack) (w'' ++ r) := by
  obtain ⟨w₁, hw₁, hlead⟩ := Frame.skipLead_complete hw hl
  refine ⟨w₁ ++ w', hw₁.append hw', fun u r hu => ?_⟩
  rw [List.append_assoc]
  exact skipItems_next hu (hlead (w' ++ r))

/-- What the machine does with a text of a category, whatever the `stack` is: it skips a value, and
the items of a frame together with the end of the frame, whether they are its first ones or follow a
comma. -/
def Category.Skips : Category → List Char → Prop
  | .value, t => ∀ stack w r, Blanks w → EndsNumeral r →
      skipOpen stack (w ++ (t ++ r)) = skipItems stack false r
  | .items f, t => ∀ stack w r, Blanks w →
      skipItems (f :: stack) true (t ++ f.close :: r) = skipItems stack false r ∧
        skipItems (f :: stack) false (w ++ ',' :: (t ++ f.close :: r)) = skipItems stack false r

theorem EndsNumeral.close (f : Frame) (r : List Char) : EndsNumeral (f.close :: r) :=
  .cons (by cases f <;> decide) r

/-- Whatever is derived is skipped (`Category.Skips`), by induction on the derivation. -/
theorem Derives.skips {k : Category} (h : Derives k t) : k.Skips t := by
  -- A value without items is skipped at once, wherever it starts.
  have simple : ∀ {v : List Char}, Derives .value v →
      (∀ r, EndsNumeral r → skipSimple (v ++ r) = .ok (none, r)) → Category.value.Skips v := by
    intro v hv hskip stack w r hw hr
    obtain ⟨c, u, rfl, hc, -⟩ := hv.eq_cons
    refine skipOpen_of_simple ?_
    rw [skipBlanks_append hw, List.cons_append, skipBlanks_cons hc]
    exact hskip r hr
  -- A frame is opened, wherever it starts.
  have opened : ∀ {f : Frame} {stack : List Frame} {w : List Char}, Blanks w → ∀ s,
      skipOpen stack (w ++ f.opening :: s) = skipItems (f :: stack) true s := by
    intro f stack w hw s
    refine skipOpen_of_frame ?_
    rw [skipBlanks_append hw, skipBlanks_cons (by cases f <;> decide), skipSimple_opening]
  induction h with
  | name h => exact simple (.name h) fun r _ => skipSimple_name h
  | text h => exact simple (.text h) fun r _ => by simpa using skipSimple_text h
  | number h => exact simple (.number h) fun r hr => skipSimple_number h hr
  | @empty w' f hw' =>
    intro stack w r hw _
    rw [List.cons_append, opened hw, List.append_assoc]
    exact skipItems_close hw'
  | @filled t f _ ih =>
    intro stack w r hw _
    rw [List.cons_append, opened hw, List.append_assoc]
    exact (ih stack [] r .nil).1
  | @one f w l w' v w'' hw hl hw' hv hw'' ih =>
    intro stack u r hu
    have hrest : ∀ w, Blanks w →
        skipOpen (f :: stack) (w ++ (v ++ (w'' ++ f.close :: r))) = skipItems stack false r :=
      fun w hw => (ih _ _ _ hw (.blanks hw'' (.close f r))).trans (skipItems_close hw'')
    obtain ⟨w₁, hw₁, hfirst⟩ := skipItems_first_item stack hw hl hw' hv
    obtain ⟨w₂, hw₂, hnext⟩ := skipItems_next_item stack hw hl hw'
    simp only [List.append_assoc]
    exact ⟨(hfirst _).trans (hrest w₁ hw₁), (hnext u _ hu).trans (hrest w₂ hw₂)⟩
  | @more f w l w' v w'' t hw hl hw' hv hw'' _ ihv iht =>
    intro stack u r hu
    have hrest : ∀ w, Blanks w →
        skipOpen (f :: stack) (w ++ (v ++ (w'' ++ ',' :: (t ++ f.close :: r)))) =
          skipItems stack false r :=
      fun w hw => (ihv _ _ _ hw (.blanks hw'' (.cons (by decide) _))).trans (iht _ _ _ hw'').2
    obtain ⟨w₁, hw₁, hfirst⟩ := skipItems_first_item stack hw hl hw' hv
    obtain ⟨w₂, hw₂, hnext⟩ := skipItems_next_item stack hw hl hw'
    simp only [List.append_assoc, List.cons_append]
    exact ⟨(hfirst _).trans (hrest w₁ hw₁), (hnext u _ hu).trans (hrest w₂ hw₂)⟩

/-- **Completeness.** A value `v` of any depth is skipped, if what follows cannot continue it
(`EndsNumeral`). -/
theorem skipValue_complete (hw : Blanks w) (hv : Derives .value v) (hr : EndsNumeral r) :
    skipValue (w ++ (v ++ r)) = .ok ((), r) := by
  rw [skipValue, hv.skips [] w r hw hr, skipItems]

/-! ## Soundness -/

/-- What a frame still takes before it is closed: blanks, its items if it was just opened, or more
items behind a comma. -/
inductive Rest (f : Frame) : Bool → List Char → Prop
  | blanks {first : Bool} {w : List Char} : Blanks w → Rest f first w
  | items {t : List Char} : Derives (.items f) t → Rest f true t
  | more {w t : List Char} : Blanks w → Derives (.items f) t → Rest f false (w ++ ',' :: t)

/-- What a stack of open frames still takes: the `Rest` of the innermost one, its end, and so on. -/
inductive Closes : List Frame → Bool → List Char → Prop
  | done {first : Bool} : Closes [] first []
  | frame {f : Frame} {stack : List Frame} {first : Bool} {t u : List Char} : Rest f first t →
      Closes stack false u → Closes (f :: stack) first (t ++ f.close :: u)

/-- An item and the `Rest` of its frame behind it are items. -/
theorem Rest.items_append {w' u : List Char} (hw : Blanks w) (hl : Lead f l) (hw' : Blanks w')
    (hv : Derives .value v) (hu : Rest f false u) :
    Derives (.items f) (w ++ (l ++ (w' ++ (v ++ u)))) := by
  cases hu with
  | blanks hu => exact .one hw hl hw' hv hu
  | more hu ht => exact .more hw hl hw' hv hu ht

/-- A frame `f` that was just opened and what it takes until its end are a value. -/
theorem Rest.value (h : Rest f true t) : Derives .value (f.opening :: (t ++ [f.close])) := by
  cases h with
  | blanks hw => exact .empty f hw
  | items ht => exact .filled ht

/-- Behind the lead `l` of an item, a run that takes a value `v` and then closes all frames has
taken the items of the innermost one. -/
theorem Closes.of_item {w' : List Char} (hw : Blanks w) (hl : Lead f l) (hw' : Blanks w')
    (hv : Derives .value v) (ht : Closes (f :: stack) false t) :
    ∃ i u, Derives (.items f) i ∧ Closes stack false u ∧
      w ++ (l ++ (w' ++ (v ++ t))) = i ++ f.close :: u := by
  cases ht with
  | frame hrest hu => exact ⟨_, _, hrest.items_append hw hl hw' hv, hu, by simp⟩

/-- **Step.** Where a value is due, `skipOpen` skips one without items, or opens a frame. -/
theorem skipOpen_step {u : Unit} (h : skipOpen stack s = .ok (u, r)) :
    ∃ w t, Blanks w ∧
      ((∃ v, Derives .value v ∧ s = w ++ (v ++ t) ∧ skipItems stack false t = .ok (u, r)) ∨
        ∃ f, s = w ++ f.opening :: t ∧ skipItems (f :: stack) true t = .ok (u, r)) := by
  obtain ⟨w, hw, hs⟩ := blanks_of_skipBlanks (s := s) rfl
  unfold skipOpen at h
  split at h
  · cases h
  · rename_i t hsimple
    rcases skipSimple_sound hsimple with ⟨-, v, hv, hs'⟩ | ⟨f, hf, -⟩
    · exact ⟨w, t, hw, .inl ⟨v, hv, by rw [hs, hs'], h⟩⟩
    · cases hf
  · rename_i f t hsimple
    rcases skipSimple_sound hsimple with ⟨hf, -⟩ | ⟨_, ⟨⟩, hs'⟩
    · cases hf
    · exact ⟨w, t, hw, .inr ⟨f, by rw [hs, hs'], h⟩⟩

/-- **Step.** Inside the frame `f`, `skipItems` closes the frame, or goes on behind the lead of an
item. -/
theorem skipItems_step {first : Bool} {u : Unit} (h : skipItems (f :: stack) first s = .ok (u, r)) :
    ∃ w t, Blanks w ∧
      ((s = w ++ f.close :: t ∧ skipItems stack false t = .ok (u, r)) ∨
        ∃ w' l, Blanks w' ∧ Lead f l ∧ skipOpen (f :: stack) t = .ok (u, r) ∧
          s = w ++ if first then l ++ t else ',' :: (w' ++ (l ++ t))) := by
  rw [skipItems] at h
  split at h
  · cases h
  rename_i c t hc
  obtain ⟨w, hw, rfl⟩ := blanks_of_skipBlanks hc
  -- What comes behind the blanks closes the frame, starts its first item, or is a comma.
  split at h
  · rename_i hclose
    exact ⟨w, t, hw, .inl ⟨by rw [hclose], h⟩⟩
  split at h
  · rename_i hfirst
    split at h
    · cases h
    · rename_i t' hlead
      obtain ⟨w₁, l, hw₁, hl, hs⟩ := Frame.skipLead_sound hlead
      refine ⟨w ++ w₁, t', hw.append hw₁, .inr ⟨[], l, .nil, hl, h, ?_⟩⟩
      rw [if_pos hfirst, hs, List.append_assoc]
  split at h
  · rename_i hfirst hcomma
    split at h
    · cases h
    · rename_i t' hlead
      obtain ⟨w₁, l, hw₁, hl, rfl⟩ := Frame.skipLead_sound hlead
      exact ⟨w, t', hw, .inr ⟨w₁, l, hw₁, hl, h, by rw [if_neg hfirst, hcomma]⟩⟩
  · cases h

/-- **Run.** Every run that ends has a derivation behind it; by induction on twice the number of
unread characters, for both parts of the machine at once: `skipOpen` goes on in `skipItems` with
fewer characters, and `skipItems` in `skipOpen` with as many at most. -/
theorem skip_sound (n : Nat) :
    (∀ {stack s r u}, 2 * s.length ≤ n → skipOpen stack s = .ok (u, r) →
      ∃ w v t, Blanks w ∧ Derives .value v ∧ Closes stack false t ∧ s = w ++ (v ++ (t ++ r))) ∧
    (∀ {stack first s r u}, 2 * s.length + 1 ≤ n → skipItems stack first s = .ok (u, r) →
      ∃ t, Closes stack first t ∧ s = t ++ r) := by
  induction n using Nat.strongRecOn with
  | _ n ih =>
    have open_sound : ∀ {stack s r u}, 2 * s.length < n → skipOpen stack s = .ok (u, r) → _ :=
      fun hn h => (ih _ hn).1 (Nat.le_refl _) h
    have items_sound : ∀ {stack first s r u}, 2 * s.length + 1 < n →
        skipItems stack first s = .ok (u, r) → _ :=
      fun hn h => (ih _ hn).2 (Nat.le_refl _) h
    refine ⟨fun {stack s r u} hn h => ?_, fun {stack first s r u} hn h => ?_⟩
    · obtain ⟨w, s, hw, ⟨v, hv, rfl, hrun⟩ | ⟨f, rfl, hrun⟩⟩ := skipOpen_step h
      · obtain ⟨c, v, rfl, -⟩ := hv.eq_cons
        obtain ⟨t, ht, rfl⟩ := items_sound (by simp at hn; omega) hrun
        exact ⟨w, _, t, hw, hv, ht, rfl⟩
      · obtain ⟨t, ht, rfl⟩ := items_sound (by simp at hn; omega) hrun
        -- What the opened frame takes and its end make it a value; the rest is the stack's.
        cases ht with
        | frame hrest hu => exact ⟨w, _, _, hw, hrest.value, hu, by simp⟩
    · cases stack with
      | nil =>
        rw [skipItems] at h
        cases h
        exact ⟨[], .done, rfl⟩
      | cons f stack =>
        obtain ⟨w, s, hw, ⟨rfl, hrun⟩ | ⟨w', l, hw', hl, hrun, rfl⟩⟩ := skipItems_step h
        · obtain ⟨t, ht, rfl⟩ := items_sound (by simp at hn; omega) hrun
          exact ⟨_, .frame (.blanks hw) ht, by simp⟩
        · cases first with
          | true =>
            obtain ⟨w₂, v, t, hw₂, hv, ht, rfl⟩ := open_sound (by simp at hn; omega) hrun
            obtain ⟨i, u, hi, hu, heq⟩ := ht.of_item hw hl hw₂ hv
            exact ⟨_, .frame (.items hi) hu, by simp [← heq]⟩
          | false =>
            obtain ⟨w₂, v, t, hw₂, hv, ht, rfl⟩ := open_sound (by simp at hn; omega) hrun
            obtain ⟨i, u, hi, hu, heq⟩ := ht.of_item hw' hl hw₂ hv
            exact ⟨_, .frame (.more hw hi) hu, by simp [← heq]⟩

/-- **Soundness.** What `skipValue` skips is a value with blanks in front. -/
theorem skipValue_sound {u : Unit} (h : skipValue s = .ok (u, r)) :
    ∃ w v, Blanks w ∧ Derives .value v ∧ s = w ++ (v ++ r) := by
  obtain ⟨w, v, t, hw, hv, ht, rfl⟩ := (skip_sound _).1 (Nat.le_refl _) h
  cases ht
  exact ⟨w, v, hw, hv, rfl⟩

end Json

end Handoff
