import Handoff.Proofs.Descriptor.Grammar

/-!
# Members of an object are read by their grammar

The reader goes through the members in the order of the text and keeps a draft. What the draft
holds and what the members still say are together each field of the descriptor once
(`Draft.Completes`), which a member that is read does not change (`Draft.completes_add_iff`).

* `readTextValue_eq_ok_iff`, `readSlotValue_sound`, `readSlotValue_complete`: the values of fields.
* `Draft.readMember_sound`, `Draft.readMember_complete`: one member behind the quote of its key.
* `Draft.readMembers_sound`, `Draft.readMembers_complete`: all of them, by induction with the draft
  left free.
-/

namespace Handoff

namespace Descriptor

open Json

variable {s t r w cs : List Char} {n : Int}

/-! ## Values of fields -/

theorem readTextValue_eq_ok_iff :
    readTextValue s = .ok (cs, r) ↔
      ∃ w b, Blanks w ∧ Body b cs ∧ s = w ++ '"' :: (b ++ '"' :: r) := by
  constructor
  · intro h
    unfold readTextValue at h
    split at h
    · rename_i hs
      obtain ⟨w, hw, rfl⟩ := blanks_of_skipBlanks hs
      obtain ⟨b, hb, rfl⟩ := readText_eq_ok_iff.mp h
      exact ⟨w, b, hw, hb, rfl⟩
    · cases h
  · rintro ⟨w, b, hw, hb, rfl⟩
    rw [readTextValue, skipBlanks_append hw, skipBlanks_cons (by decide)]
    exact readText_eq_ok_iff.mpr ⟨b, hb, rfl⟩

theorem readSlotValue_sound (h : readSlotValue s = .ok (n, r)) :
    ∃ w t, Blanks w ∧ (Member.slot n).Value t ∧ s = w ++ (t ++ r) := by
  unfold readSlotValue at h
  split at h
  · cases h
  · rename_i hs
    obtain ⟨w, hw, rfl⟩ := blanks_of_skipBlanks hs
    split at h
    · split at h
      · cases h
      · rename_i hn
        obtain ⟨t, ht, hct⟩ := readNumber_sound hn
        split at h
        · rename_i hrange
          cases h
          exact ⟨w, t, hw, .slot ht hrange.1 hrange.2, by rw [hct]⟩
        · cases h
      · cases h
    · cases h

theorem readSlotValue_complete (hw : Blanks w) (ht : (Member.slot n).Value t)
    (hr : EndsNumeral r) : readSlotValue (w ++ (t ++ r)) = .ok (n, r) := by
  cases ht with
  | slot ht h₁ h₂ =>
    have hn := readNumber_complete ht (by omega)
      (Int.lt_trans h₂ (show (2147483648 : Int) < UInt64.size by decide)) hr
    obtain ⟨m, hm⟩ := ht.isNumeral
    obtain ⟨c, t, rfl, hc⟩ := hm.eq_cons
    rw [List.cons_append] at hn ⊢
    simp only [readSlotValue, skipBlanks_append hw, skipBlanks_cons (isBlank_of_starts hc),
      if_pos hc, hn, if_pos (And.intro h₁ h₂)]

/-! ## Members -/

/-- The field that a member gives, if it is asked for; `.other` ones give none. -/
def Member.field? : Member → Option Field
  | .address _ => some .address
  | .slot _ => some .slot
  | .debugName _ => some .debugName
  | .other _ => none

theorem Field.ofName?_eq_some {f : Field} (h : ofName? cs = some f) : cs = f.name.toList := by
  unfold ofName? at h
  split at h
  · cases h; assumption
  split at h
  · cases h; assumption
  split at h
  · cases h; assumption
  · cases h

theorem Field.ofName?_eq_none_iff :
    ofName? cs = none ↔ cs ∉ ["addr".toList, "fd".toList, "filename".toList] := by
  unfold ofName?
  split
  · simp_all
  split
  · simp_all
  split
  · simp_all
  · simp_all

/-- The key of a member tells its field: `other` keys are spelled for no field. -/
theorem Member.Value.ofName?_key {m : Member} {v : List Char} (h : m.Value v) :
    Field.ofName? m.key = m.field? := by
  cases h with
  | address => rfl
  | slot => rfl
  | debugName => rfl
  | other hkey => exact Field.ofName?_eq_none_iff.mpr hkey

theorem skipColon_eq_ok_iff {u : Unit} :
    skipColon s = .ok (u, r) ↔ ∃ w, Blanks w ∧ s = w ++ ':' :: r := by
  constructor
  · intro h
    unfold skipColon at h
    split at h
    · cases h
    · rename_i hs
      cases h
      exact blanks_of_skipBlanks hs
    · cases h
  · rintro ⟨w, hw, rfl⟩
    simp [skipColon, skipBlanks_append hw, skipBlanks_cons (show isBlank ':' = false by decide)]

namespace Draft

variable {d d' : Draft} {m : Member} {ms : List Member} {x : Descriptor} {k v w' : List Char}

/-- The draft with what a member says in the place of its field. -/
def add (d : Draft) : Member → Draft
  | .address cs => { d with address := some cs }
  | .slot n => { d with slot := some n }
  | .debugName cs => { d with debugName := some cs }
  | .other _ => d

/-- The member `m` does not repeat a field that `d` has read. -/
def Accepts (d : Draft) (m : Member) : Prop := ∀ f, m.field? = some f → d.has f = false

/-- What `readField` takes for the value of a field is a spelling of the value of a member `m`. -/
theorem readField_sound {f : Field} (h : d.readField f s = .ok (d', r)) :
    ∃ m w v, m.field? = some f ∧ m.key = f.name.toList ∧ d' = d.add m ∧ Blanks w ∧ m.Value v ∧
      s = w ++ (v ++ r) := by
  cases f with
  | address =>
    simp only [readField] at h
    split at h
    · cases h
    · rename_i cs _ hv
      cases h
      obtain ⟨w, b, hw, hb, rfl⟩ := readTextValue_eq_ok_iff.mp hv
      exact ⟨.address cs, w, _, rfl, rfl, rfl, hw, .address hb, by simp⟩
  | slot =>
    simp only [readField] at h
    split at h
    · cases h
    · rename_i n _ hv
      cases h
      obtain ⟨w, t, hw, ht, rfl⟩ := readSlotValue_sound hv
      exact ⟨.slot n, w, t, rfl, rfl, rfl, hw, ht, rfl⟩
  | debugName =>
    simp only [readField] at h
    split at h
    · cases h
    · rename_i cs _ hv
      cases h
      obtain ⟨w, b, hw, hb, rfl⟩ := readTextValue_eq_ok_iff.mp hv
      exact ⟨.debugName cs, w, _, rfl, rfl, rfl, hw, .debugName hb, by simp⟩

/-- The spelling `v` of the value of a member is read into the draft, if what follows
`EndsNumeral`. -/
theorem readField_complete {f : Field} (hf : m.field? = some f) (hw : Blanks w) (hv : m.Value v)
    (hr : EndsNumeral r) : d.readField f (w ++ (v ++ r)) = .ok (d.add m, r) := by
  have text : ∀ {b cs}, Body b cs →
      readTextValue (w ++ ('"' :: (b ++ ['"']) ++ r)) = .ok (cs, r) := fun hb =>
    readTextValue_eq_ok_iff.mpr ⟨w, _, hw, hb, by simp⟩
  cases hv with
  | address hb => cases hf; simp only [readField, text hb, add]
  | slot ht h₁ h₂ =>
    cases hf
    simp only [readField, readSlotValue_complete hw (.slot ht h₁ h₂) hr, add]
  | debugName hb => cases hf; simp only [readField, text hb, add]
  | other => cases hf

/-- What is read as a member, behind the opening quote of its key, is a spelling of one that `d`
`Accepts`. -/
theorem readMember_sound (h : d.readMember s = .ok (d', r)) :
    ∃ m k w w' v, d.Accepts m ∧ d' = d.add m ∧ Body k m.key ∧ Blanks w ∧ Blanks w' ∧ m.Value v ∧
      s = k ++ '"' :: (w ++ ':' :: (w' ++ (v ++ r))) := by
  unfold readMember at h
  split at h
  · cases h
  · rename_i key _ hkey
    obtain ⟨k, hk, rfl⟩ := readText_eq_ok_iff.mp hkey
    split at h
    · rename_i f hname
      split at h
      · cases h
      · rename_i hhas
        split at h
        · cases h
        · rename_i hcolon
          obtain ⟨w, hw, rfl⟩ := skipColon_eq_ok_iff.mp hcolon
          obtain ⟨m, w', v, hf, hmk, hd, hw', hv, rfl⟩ := readField_sound h
          refine ⟨m, k, w, w', v, ?_, hd, ?_, hw, hw', hv, rfl⟩
          -- The field was looked up under its name, and `has` has refused a second value.
          · intro g hg
            obtain rfl : f = g := Option.some.inj (hf.symm.trans hg)
            simpa using hhas
          · rw [hmk, ← Field.ofName?_eq_some hname]
            exact hk
    · rename_i hname
      split at h
      · cases h
      · rename_i hcolon
        obtain ⟨w, hw, rfl⟩ := skipColon_eq_ok_iff.mp hcolon
        split at h
        · cases h
        · rename_i hskip
          obtain ⟨w', v, hw', hv, rfl⟩ := skipValue_sound hskip
          cases h
          refine ⟨.other key, k, w, w', v, ?_, rfl, hk, hw, hw', ?_, rfl⟩
          · rintro g ⟨⟩
          · exact .other (Field.ofName?_eq_none_iff.mp hname) hv

/-- The spelling of a member that `d` `Accepts` is read into the draft. -/
theorem readMember_complete (hd : d.Accepts m) (hk : Body k m.key) (hw : Blanks w)
    (hw' : Blanks w') (hv : m.Value v) (hr : EndsNumeral r) :
    d.readMember (k ++ '"' :: (w ++ ':' :: (w' ++ (v ++ r)))) = .ok (d.add m, r) := by
  have hkey : readText (k ++ '"' :: (w ++ ':' :: (w' ++ (v ++ r)))) =
      .ok (m.key, w ++ ':' :: (w' ++ (v ++ r))) := readText_eq_ok_iff.mpr ⟨k, hk, rfl⟩
  have hcolon : skipColon (w ++ ':' :: (w' ++ (v ++ r))) = .ok ((), w' ++ (v ++ r)) :=
    skipColon_eq_ok_iff.mpr ⟨w, hw, rfl⟩
  simp only [readMember, hkey, hv.ofName?_key]
  cases hf : m.field? with
  | some f =>
    simp [hd f hf, hcolon, readField_complete hf hw' hv hr]
  | none =>
    cases hv with
    | address => cases hf
    | slot => cases hf
    | debugName => cases hf
    | other hkey hv => simp only [hcolon, skipValue_complete hw' hv hr, add]

end Draft

/-! ## Objects -/

/-- Where the next key is found: behind a comma, but for the `first` one. -/
theorem nextKey_sound {first : Bool} (h : nextKey first s = .ok (true, r)) :
    ∃ w w', Blanks w ∧ Blanks w' ∧
      s = w ++ if first then '"' :: r else ',' :: (w' ++ '"' :: r) := by
  unfold nextKey at h
  split at h
  · cases h
  rename_i hs
  obtain ⟨w, hw, rfl⟩ := blanks_of_skipBlanks hs
  split at h
  · cases h
  split at h
  · rename_i hfirst
    split at h
    · rename_i hc
      cases h
      exact ⟨w, [], hw, .nil, by rw [hc, if_pos hfirst]⟩
    · cases h
  split at h
  · rename_i hfirst hc
    split at h
    · cases h
    rename_i ht
    obtain ⟨w', hw', rfl⟩ := blanks_of_skipBlanks ht
    split at h
    · rename_i hd
      cases h
      exact ⟨w, w', hw, hw', by rw [hc, hd, if_neg hfirst]⟩
    split at h <;> cases h
  · cases h

theorem nextKey_end_sound {first : Bool} (h : nextKey first s = .ok (false, r)) :
    ∃ w, Blanks w ∧ s = w ++ '\x7d' :: r := by
  unfold nextKey at h
  split at h
  · cases h
  rename_i hs
  split at h
  · rename_i hc
    cases h
    exact blanks_of_skipBlanks (hc ▸ hs)
  split at h
  · split at h <;> cases h
  split at h
  · split at h
    · cases h
    split at h
    · cases h
    split at h <;> cases h
  · cases h

theorem nextKey_first (hw : Blanks w) (r : List Char) :
    nextKey true (w ++ '"' :: r) = .ok (true, r) := by
  simp [nextKey, skipBlanks_append hw, skipBlanks_cons (show isBlank '"' = false by decide)]

theorem nextKey_next {w' : List Char} (hw : Blanks w) (hw' : Blanks w') (r : List Char) :
    nextKey false (w ++ ',' :: (w' ++ '"' :: r)) = .ok (true, r) := by
  simp [nextKey, skipBlanks_append hw, skipBlanks_append hw',
    skipBlanks_cons (show isBlank ',' = false by decide),
    skipBlanks_cons (show isBlank '"' = false by decide)]

theorem nextKey_end (first : Bool) (hw : Blanks w) (r : List Char) :
    nextKey first (w ++ '\x7d' :: r) = .ok (false, r) := by
  simp [nextKey, skipBlanks_append hw, skipBlanks_cons (show isBlank '\x7d' = false by decide)]

/-- What an object still takes before its end: blanks, its members if it was just opened, or more
members behind a comma. -/
inductive Members.Rest : Bool → List Member → List Char → Prop
  | blanks {first : Bool} {w : List Char} : Blanks w → Rest first [] w
  | members {ms : List Member} {t : List Char} : Members ms t → Rest true ms t
  | more {ms : List Member} {w t : List Char} : Blanks w → Members ms t →
      Rest false ms (w ++ ',' :: t)

/-- A member and the `Rest` behind it are members. -/
theorem Members.Rest.cons {m : Member} {ms : List Member} {k w' w'' v u : List Char}
    (hw : Blanks w) (hk : Body k m.key) (hw' : Blanks w') (hw'' : Blanks w'') (hv : m.Value v)
    (hu : Rest false ms u) :
    Members (m :: ms) (w ++ '"' :: (k ++ '"' :: (w' ++ ':' :: (w'' ++ (v ++ u))))) := by
  cases hu with
  | blanks hu => exact .one (.mk hw hk hw' (.mk hw'' hv hu))
  | more hu ht =>
    have := Members.more (.mk hw hk hw' (.mk hw'' hv hu)) ht
    simpa using this

namespace Draft

variable {d d' : Draft} {m : Member} {ms : List Member} {x : Descriptor}

/-- What the draft `d` holds and what the members `ms` say are together each field of `x` once. -/
structure Completes (d : Draft) (ms : List Member) (x : Descriptor) : Prop where
  address : d.address.toList ++ ms.filterMap Member.address? = [x.address.toList]
  slot : d.slot.toList ++ ms.filterMap Member.slot? = [x.slot]
  debugName : d.debugName.toList ++ ms.filterMap Member.debugName? = [x.debugName.toList]

theorem finish_eq_ok_iff : d.finish = .ok x ↔ d.Completes [] x := by
  constructor
  · intro h
    unfold finish at h
    split at h
    · cases h
    · cases h
    · cases h
    · rename_i ha hn hb
      cases h
      exact ⟨by simp [ha], by simp [hn], by simp [hb]⟩
  · rintro ⟨ha, hn, hb⟩
    simp only [List.filterMap_nil, List.append_nil, Option.toList_eq_singleton_iff] at ha hn hb
    simp [finish, ha, hn, hb]

/-- If `m` and other members complete a draft, `m` does not repeat a field of it. -/
theorem Completes.accepts (h : d.Completes (m :: ms) x) : d.Accepts m := by
  obtain ⟨ha, hn, hb⟩ := h
  intro f hf
  cases m with
  | address cs =>
    cases hf
    cases hd : d.address with
    | none => simp [has, hd]
    | some a => simp [hd, Member.address?] at ha
  | slot n =>
    cases hf
    cases hd : d.slot with
    | none => simp [has, hd]
    | some a => simp [hd, Member.slot?] at hn
  | debugName cs =>
    cases hf
    cases hd : d.debugName with
    | none => simp [has, hd]
    | some a => simp [hd, Member.debugName?] at hb
  | other => cases hf

/-- What a draft holds of each field behind a member that it `Accepts`. -/
theorem toList_add (h : d.Accepts m) :
    (d.add m).address.toList = d.address.toList ++ m.address?.toList ∧
      (d.add m).slot.toList = d.slot.toList ++ m.slot?.toList ∧
      (d.add m).debugName.toList = d.debugName.toList ++ m.debugName?.toList := by
  cases m with
  | address cs =>
    have hd : d.address = none := by simpa [has] using h .address rfl
    simp [add, hd, Member.address?, Member.slot?, Member.debugName?]
  | slot n =>
    have hd : d.slot = none := by simpa [has] using h .slot rfl
    simp [add, hd, Member.address?, Member.slot?, Member.debugName?]
  | debugName cs =>
    have hd : d.debugName = none := by simpa [has] using h .debugName rfl
    simp [add, hd, Member.address?, Member.slot?, Member.debugName?]
  | other key => simp [add, Member.address?, Member.slot?, Member.debugName?]

/-- **Step.** What a member says may be held by the draft instead, so a step of the reader keeps
`Completes`. -/
theorem completes_add_iff (h : d.Accepts m) :
    (d.add m).Completes ms x ↔ d.Completes (m :: ms) x := by
  have hcons : ∀ {α : Type} (f : Member → Option α),
      (m :: ms).filterMap f = (f m).toList ++ ms.filterMap f := by
    intro α f
    cases hf : f m <;> simp [hf]
  obtain ⟨ha, hn, hb⟩ := toList_add h
  constructor
  · rintro ⟨h₁, h₂, h₃⟩
    rw [ha, List.append_assoc, ← hcons] at h₁
    rw [hn, List.append_assoc, ← hcons] at h₂
    rw [hb, List.append_assoc, ← hcons] at h₃
    exact ⟨h₁, h₂, h₃⟩
  · rintro ⟨h₁, h₂, h₃⟩
    rw [hcons, ← List.append_assoc, ← ha] at h₁
    rw [hcons, ← List.append_assoc, ← hn] at h₂
    rw [hcons, ← List.append_assoc, ← hb] at h₃
    exact ⟨h₁, h₂, h₃⟩

/-- What `readMembers` takes are spellings of members `ms` that complete the draft `d`. -/
theorem readMembers_sound {first : Bool} (h : d.readMembers first s = .ok (x, r)) :
    ∃ ms t, Members.Rest first ms t ∧ d.Completes ms x ∧ s = t ++ '\x7d' :: r := by
  fun_induction readMembers d first s with
  | case1 => cases h
  | case2 => cases h
  | case3 d first s _ hkey y hfinish =>
    cases h
    obtain ⟨w, hw, rfl⟩ := nextKey_end_sound hkey
    exact ⟨[], w, .blanks hw, finish_eq_ok_iff.mp hfinish, rfl⟩
  | case4 => cases h
  | case5 d first s t hkey d' u hmember _ _ ih =>
    obtain ⟨ms, v, hrest, hcompletes, rfl⟩ := ih h
    obtain ⟨m, k, w₁, w₂, z, haccepts, rfl, hk, hw₁, hw₂, hz, rfl⟩ := readMember_sound hmember
    obtain ⟨w, w', hw, hw', rfl⟩ := nextKey_sound hkey
    -- The draft of the recursive call holds what the new member says.
    have hm := (completes_add_iff haccepts).mp hcompletes
    cases first with
    | true => exact ⟨m :: ms, _, .members (hrest.cons hw hk hw₁ hw₂ hz), hm, by simp⟩
    | false => exact ⟨m :: ms, _, .more hw (hrest.cons hw' hk hw₁ hw₂ hz), hm, by simp⟩

theorem readMembers_member {first : Bool} (hk : nextKey first s = .ok (true, t))
    (hm : d.readMember t = .ok (d', r)) :
    d.readMembers first s = d'.readMembers false r := by
  rw [readMembers]
  split
  · rename_i h; rw [hk] at h; cases h
  · rename_i h; rw [hk] at h; cases h
  · rename_i h
    rw [hk] at h
    cases h
    split
    · rename_i h; rw [hm] at h; cases h
    · rename_i h; rw [hm] at h; cases h; rfl

theorem readMembers_end (first : Bool) (hd : d.finish = .ok x) (hw : Blanks w) (r : List Char) :
    d.readMembers first (w ++ '\x7d' :: r) = .ok (x, r) := by
  have hend := nextKey_end first hw r
  rw [readMembers]
  split
  · rename_i h; rw [hend] at h; cases h
  · rename_i h; rw [hend] at h; cases h; simp [hd]
  · rename_i h; rw [hend] at h; cases h

/-- One member `m` at the front is read into the draft `d`, whether it is the first or follows a
comma. -/
theorem readMembers_spelled (hd : d.Accepts m) (ht : m.Spelled t) :
    ∃ w, Blanks w ∧ ∀ r, EndsNumeral r →
      d.readMembers true (t ++ r) = (d.add m).readMembers false (w ++ r) ∧
        ∀ u, Blanks u →
          d.readMembers false (u ++ ',' :: (t ++ r)) = (d.add m).readMembers false (w ++ r) := by
  obtain @⟨w, k, w₁, _, hw, hk, hw₁, @⟨w₂, v, w₃, hw₂, hv, hw₃⟩⟩ := ht
  refine ⟨w₃, hw₃, fun r hr => ?_⟩
  have hmember : d.readMember (k ++ '"' :: (w₁ ++ ':' :: (w₂ ++ (v ++ (w₃ ++ r))))) =
      .ok (d.add m, w₃ ++ r) := readMember_complete hd hk hw₁ hw₂ hv (.blanks hw₃ hr)
  simp only [List.append_assoc, List.cons_append]
  exact ⟨readMembers_member (nextKey_first hw _) hmember,
    fun u hu => readMembers_member (nextKey_next hu hw _) hmember⟩

/-- **Run.** Members `ms` that complete the draft are read as an object, whether they are its first
ones or follow a comma; by induction on the members. -/
theorem readMembers_complete (ht : Members ms t) (hm : d.Completes ms x) (r : List Char) :
    d.readMembers true (t ++ '\x7d' :: r) = .ok (x, r) ∧
      ∀ w, Blanks w → d.readMembers false (w ++ ',' :: (t ++ '\x7d' :: r)) = .ok (x, r) := by
  induction ht generalizing d with
  | one ht =>
    obtain ⟨w, hw, hread⟩ := readMembers_spelled hm.accepts ht
    obtain ⟨hfirst, hnext⟩ := hread ('\x7d' :: r) (.cons (by decide) r)
    have hfinish := finish_eq_ok_iff.mpr ((completes_add_iff hm.accepts).mpr hm)
    have hend := readMembers_end false hfinish hw r
    exact ⟨hfirst.trans hend, fun u hu => (hnext u hu).trans hend⟩
  | @more m ms t u ht _ ih =>
    obtain ⟨w, hw, hread⟩ := readMembers_spelled hm.accepts ht
    obtain ⟨hfirst, hnext⟩ := hread (',' :: (u ++ '\x7d' :: r)) (.cons (by decide) _)
    have hrest := (ih ((completes_add_iff hm.accepts).mpr hm)).2 w hw
    simp only [List.append_assoc, List.cons_append]
    exact ⟨hfirst.trans hrest, fun v hv => (hnext v hv).trans hrest⟩

theorem completes_empty_iff : ({} : Draft).Completes ms x ↔ Fields ms x :=
  ⟨fun ⟨h₁, h₂, h₃⟩ => ⟨h₁, h₂, h₃⟩, fun ⟨h₁, h₂, h₃⟩ => ⟨h₁, h₂, h₃⟩⟩

end Draft

end Descriptor

end Handoff
