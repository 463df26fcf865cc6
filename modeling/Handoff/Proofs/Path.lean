import Mathlib.Data.List.DropRight
import Handoff.Path

/-!
# Paths without their last component

`Path.parent?` cuts the text of a path, `Path.components` reads its components. The two agree: what
is cut is the last component, together with what does not count around it.

* `Path.components_append`: the components on both sides of a separator.
* `Path.components_trimEnd`: what is trimmed from the end of a path does not count.
* `Path.trimmed_trimEnd`: what is left is nothing, the root, or ends with a component.
* `Path.parent?_cases`: so a path has a parent, which has all of its components but the last one and
  keeps their spelling, or it has no component besides the root.
-/

namespace Handoff

namespace Path

variable {xs ys p cs dir : List OsChar}

/-! ## Components -/

/-- `pieces` are those of `List.splitOn`. -/
theorem pieces_eq_splitOn (cs : List OsChar) : pieces cs = cs.splitOn slash := by
  induction cs with
  | nil => rfl
  | cons c cs ih =>
    rw [pieces, List.splitOn_cons_eq_if_modifyHead, ih]
    by_cases hc : c = slash
    · simp [hc]
    · obtain ⟨p, ps, hp⟩ := List.exists_cons_of_ne_nil (List.splitOn_ne_nil slash cs)
      simp [hc, hp]

theorem eq_nil_of_pieces (h : pieces cs = [[]]) : cs = [] := by
  have hjoin : [slash].intercalate (cs.splitOn slash) = cs := List.intercalate_splitOn slash
  rwa [← pieces_eq_splitOn, h, eq_comm] at hjoin

/-- The components of `xs` in front of a separator: if `xs` is empty, the separator is the root. -/
def stem (xs : List OsChar) : List Component := if xs = [] then [.root] else components xs

/-- The components on both sides of a separator. Behind it, in `ys`, only names count. -/
theorem components_append (xs ys : List OsChar) :
    components (xs ++ slash :: ys) = stem xs ++ (pieces ys).filterMap nameOf? := by
  have hsplit : pieces (xs ++ slash :: ys) = pieces xs ++ pieces ys := by
    simp only [pieces_eq_splitOn, List.splitOn_append_cons_self]
  have hys : pieces ys ≠ [] := by simp [pieces_eq_splitOn]
  obtain ⟨p, ps, hp⟩ : ∃ p ps, pieces xs = p :: ps :=
    List.exists_cons_of_ne_nil (by simp [pieces_eq_splitOn])
  unfold stem components
  rw [hsplit, hp]
  by_cases hxs : xs = []
  · subst hxs
    cases hp
    simp [hys]
  · have hps : p = [] → ps ≠ [] := by
      rintro rfl rfl
      exact hxs (eq_nil_of_pieces hp)
    by_cases hempty : p = []
    · simp [hempty, hxs, hps hempty]
    · simp [hempty, hxs]

/-- A separator at the end of `xs` does not count, unless it is the root. -/
theorem components_concat (xs : List OsChar) : components (xs ++ [slash]) = stem xs := by
  rw [components_append]
  exact List.append_nil _

/-- A path `p` without a separator is one component. -/
theorem components_of_not_mem (hp : slash ∉ p) (hne : p ≠ []) :
    ∃ c, c ≠ .root ∧ components p = [c] := by
  unfold components
  rw [pieces_eq_splitOn, List.splitOn_eq_singleton hp]
  by_cases hdot : p = [dot]
  · exact ⟨.here, by simp, by simp [hdot]⟩
  · exact ⟨.name p, by simp, by simp [hne, hdot]⟩

/-- A name `p` behind a separator counts. -/
theorem components_append_name (xs : List OsChar) (hp : slash ∉ p) (hne : p ≠ [])
    (hdot : p ≠ [dot]) :
    components (xs ++ slash :: p) = stem xs ++ [.name p] := by
  rw [components_append, pieces_eq_splitOn, List.splitOn_eq_singleton hp]
  simp [nameOf?, hne, hdot]

/-- What does not count: repeated separators, `.` inside and at the end, and a separator at the end.
A leading `.` counts. -/
theorem components_respelled (xs ys : List OsChar) :
    components (xs ++ slash :: slash :: ys) = components (xs ++ slash :: ys) ∧
      components (xs ++ slash :: dot :: slash :: ys) = components (xs ++ slash :: ys) ∧
      components (xs ++ [slash, dot]) = components (xs ++ [slash]) ∧
      (xs ≠ [] → components (xs ++ [slash]) = components xs) ∧
      components (dot :: slash :: ys) = .here :: (pieces ys).filterMap nameOf? := by
  have hdot : components [dot] = [.here] := by rfl
  refine ⟨?_, ?_, ?_, fun hxs => ?_, ?_⟩
  · rw [components_append, components_append]
    simp [pieces, nameOf?]
  · rw [components_append, components_append]
    simp [pieces, nameOf?]
  · rw [components_append, components_append]
    simp [pieces, nameOf?]
  · rw [components_concat, stem, if_neg hxs]
  · have hlead := components_append [dot] ys
    rwa [stem, if_neg (by simp), hdot] at hlead

/-- Behind the root nothing counts exactly if all pieces there are empty or `.`. -/
theorem names_root_iff (ps : List (List OsChar)) :
    (∀ c ∈ ps.filterMap nameOf?, c = .root) ↔ ∀ p ∈ ps, p = [] ∨ p = [dot] := by
  constructor
  · intro h p hp
    apply Classical.byContradiction
    intro hname
    have hmem : Component.name p ∈ ps.filterMap nameOf? :=
      List.mem_filterMap.mpr ⟨p, hp, if_neg hname⟩
    cases h _ hmem
  · intro h c hc
    obtain ⟨p, hp, hname⟩ := List.mem_filterMap.mp hc
    rw [nameOf?, if_pos (h p hp)] at hname
    cases hname

/-- A path `cs` has no component besides the root if it is empty, or a separator with nothing behind
it that counts. -/
theorem components_root_iff :
    (∀ c ∈ components cs, c = .root) ↔
      cs = [] ∨ ∃ ys, cs = slash :: ys ∧ ∀ p ∈ pieces ys, p = [] ∨ p = [dot] := by
  cases cs with
  | nil => simp [components, pieces]
  | cons c cs =>
    by_cases hc : c = slash
    · have hroot : components (slash :: cs) = [.root] ++ (pieces cs).filterMap nameOf? :=
        components_append [] cs
      simp [hc, hroot, ← names_root_iff]
    · -- The first piece is not empty, so it is the first component.
      obtain ⟨p, ps, hp⟩ := List.exists_cons_of_ne_nil (List.splitOn_ne_nil slash cs)
      have hpieces : pieces (c :: cs) = (c :: p) :: ps := by
        simp [pieces, pieces_eq_splitOn, hc, hp]
      refine iff_of_false (fun h => ?_) (by simp [hc])
      unfold components at h
      rw [hpieces] at h
      by_cases hdot : c :: p = [dot] <;> simp [hdot] at h

/-! ## Trimming -/

theorem trimBackwards_isSuffix (cs : List OsChar) : trimBackwards cs <:+ cs := by
  fun_induction trimBackwards cs with
  | case1 => exact List.suffix_rfl
  | case2 cs _ ih => exact ih.trans (List.suffix_cons _ _)
  | case3 => exact List.suffix_cons _ _
  | case4 cs _ ih => exact ih.trans ((List.suffix_cons _ _).trans (List.suffix_cons _ _))
  | case5 => exact List.suffix_rfl

theorem trimEnd_isPrefix (cs : List OsChar) : trimEnd cs <+: cs := by
  have h := trimBackwards_isSuffix cs.reverse
  rwa [← List.reverse_prefix, List.reverse_reverse] at h

/-- What `trimEnd` cuts off does not count. -/
theorem components_trimEnd (cs : List OsChar) : components (trimEnd cs) = components cs := by
  suffices h : ∀ rs, components (trimBackwards rs).reverse = components rs.reverse by
    rw [trimEnd, h, List.reverse_reverse]
  -- The trimming goes backwards, so the induction is on the reversed path.
  intro rs
  fun_induction trimBackwards rs with
  | case1 => rfl
  | case2 cs hne ih =>
    have hcs : cs ≠ [] := fun h => hne (by rw [h])
    rw [ih, List.reverse_cons, components_concat, stem, if_neg (by simpa using hcs)]
  | case3 => rfl
  | case4 cs hcs ih =>
    have hdot : (dot :: slash :: cs).reverse = cs.reverse ++ slash :: [dot] := by simp
    rw [ih, hdot, components_append, stem, if_neg (by simpa using hcs)]
    exact (List.append_nil _).symm
  | case5 => rfl

/-- What cannot be trimmed: nothing, the root, or a path that ends with its last component, which is
`.` only if it is the only one. -/
inductive Trimmed : List OsChar → Prop
  | nil : Trimmed []
  | root : Trimmed [slash]
  | single {p : List OsChar} : slash ∉ p → p ≠ [] → Trimmed p
  /-- The last component is a name behind a separator. -/
  | name {xs p : List OsChar} : slash ∉ p → p ≠ [] → p ≠ [dot] → Trimmed (xs ++ slash :: p)

theorem trimmed_trimEnd (cs : List OsChar) : Trimmed (trimEnd cs) := by
  suffices h : ∀ rs, Trimmed (trimBackwards rs).reverse from h cs.reverse
  intro rs
  fun_induction trimBackwards rs with
  | case1 => exact .root
  | case2 _ _ ih => exact ih
  | case3 => exact .root
  | case4 _ _ ih => exact ih
  | case5 rs _ hslash hdot =>
    by_cases hmem : slash ∈ rs
    · obtain ⟨p, xs, rfl, hp⟩ := List.eq_append_cons_of_mem hmem
      have hname : Trimmed (xs.reverse ++ slash :: p.reverse) := by
        refine .name (by simpa using hp) (fun h => ?_) (fun h => ?_)
        · rw [List.reverse_eq_nil_iff.mp h] at hslash
          exact hslash _ rfl
        · rw [List.reverse_eq_iff.mp h] at hdot
          exact hdot _ rfl
      simpa using hname
    · by_cases hrs : rs = []
      · rw [hrs]
        exact .nil
      · exact .single (by simpa using hmem) (by simpa using hrs)

/-! ## The parent -/

/-- The text in front of the last component `p` ends with the last separator. -/
theorem rdropWhile_append (xs : List OsChar) (hp : slash ∉ p) :
    (xs ++ slash :: p).rdropWhile (· ≠ slash) = xs ++ [slash] := by
  have hne : ∀ c ∈ p.reverse, decide (c ≠ slash) = true := by
    intro c hc
    have hc : c ∈ p := by simpa using hc
    simpa using fun h : c = slash => hp (h ▸ hc)
  rw [List.rdropWhile, List.reverse_append, List.reverse_cons, List.append_assoc,
    List.dropWhile_append_of_pos hne]
  simp

/-- A trimmed path `t` is nothing or the root, or what stands in front of its last component has all
other components. -/
theorem Trimmed.cases {t : List OsChar} (ht : Trimmed t) :
    ((t = [] ∨ t = [slash]) ∧ ∀ c ∈ components t, c = .root) ∨
      (t ≠ [] ∧ t ≠ [slash]) ∧
        ∃ c, c ≠ .root ∧ components t = components (t.rdropWhile (· ≠ slash)) ++ [c] := by
  cases ht with
  | nil => exact .inl ⟨.inl rfl, components_root_iff.mpr (.inl rfl)⟩
  | root => exact .inl ⟨.inr rfl, components_root_iff.mpr (.inr ⟨[], rfl, by simp [pieces]⟩)⟩
  | single hp hne =>
    obtain ⟨c, hc, hcomponents⟩ := components_of_not_mem hp hne
    have hcut : t.rdropWhile (· ≠ slash) = [] := by
      rw [List.rdropWhile_eq_nil_iff]
      intro d hd
      simpa using fun h : d = slash => hp (h ▸ hd)
    refine .inr ⟨⟨hne, ?_⟩, c, hc, ?_⟩
    · rintro rfl
      simp at hp
    · rw [hcomponents, hcut]
      rfl
  | @name xs p hp hne hdot =>
    refine .inr ⟨⟨by simp, ?_⟩, .name p, by simp, ?_⟩
    · intro h
      have hlength := congrArg List.length h
      have hpos := List.length_pos_iff.mpr hne
      simp only [List.length_append, List.length_cons, List.length_nil] at hlength
      omega
    · rw [rdropWhile_append xs hp, components_concat, components_append_name xs hp hne hdot]

/-- **Parent.** A path has a parent `dir`, which keeps the spelling of the path and has all its
components but the last one, `c`, or it has no component besides the root. -/
theorem parent?_cases (cs : List OsChar) :
    (parent? cs = none ∧ ∀ c ∈ components cs, c = .root) ∨
      ∃ dir c, parent? cs = some dir ∧ dir <+: cs ∧ c ≠ .root ∧
        components cs = components dir ++ [c] := by
  have hparent : parent? cs = if trimEnd cs = [] ∨ trimEnd cs = [slash] then none
      else some (trimEnd ((trimEnd cs).rdropWhile (· ≠ slash))) := rfl
  have hcut : (trimEnd cs).rdropWhile (· ≠ slash) <+: trimEnd cs := List.rdropWhile_prefix _ _
  have htrim := trimEnd_isPrefix cs
  have hsame := components_trimEnd cs
  rw [hparent, ← hsame]
  rcases (trimmed_trimEnd cs).cases with ⟨hnone, hroot⟩ | ⟨hsome, c, hc, hcomponents⟩
  · exact .inl ⟨if_pos hnone, hroot⟩
  · refine .inr ⟨_, c, if_neg (not_or.mpr hsome), ?_, hc, ?_⟩
    · exact (trimEnd_isPrefix _).trans (hcut.trans htrim)
    · rw [hcomponents, components_trimEnd]

end Path

end Handoff
