import Handoff.Proofs.Spawn.Plan

/-!
# Installing handles one by one

The handles of a child are put into their slots one after the other, so a slot that is written early
could be the source of a later handle. Where no handle reads what was written before it, the order
does not matter: each slot gets what its source was at the start.

* `writtenSlots`, `Unspoiled`: the slots that are written, and handles that do not read them.
* `get?_installHandles`: all other fds are as they were.
* `exists_installHandles_iff`, `get?_slot`: unspoiled handles can be installed if their sources are
  open at the start, and are then in their slots.
* `SpawnPlan.installHandles_ofProgram`: the handles of a plan are unspoiled, whatever the fd of the
  listener is.
-/

namespace Handoff

variable {t t' : FdTable} {slot k : Int} {h : Handle} {hs : List Handle}

/-- The slots that are written when handles are put into the slots from `slot` up. -/
def writtenSlots (slot : Int) : List Handle → List Int
  | [] => []
  | h :: hs =>
    if h.InPlace slot then writtenSlots (slot + 1) hs else slot :: writtenSlots (slot + 1) hs

/-- No source of a handle in `hs` is a slot that was written before, from `slot` on. -/
def Unspoiled (slot : Int) (hs : List Handle) : Prop :=
  ∀ (i : Nat) h, hs[i]? = some h → h.source ∉ writtenSlots slot (hs.take i)

/-- Here the second handle reads the slot that the first one has written. -/
example : Handle.stdin.source ∈ writtenSlots 0 ([.listener 7, .stdin].take 1) := by decide

/-! ## One step -/

/-- `installHandle` changes its slot at most, and that only if it writes it. -/
theorem get?_installHandle (hok : installHandle t slot h = .ok t')
    (hk : ¬ h.InPlace slot → k ≠ slot) : t'.get? k = t.get? k := by
  rcases installHandle_eq_ok.mp hok with ⟨-, rfl⟩ | ⟨hwrite, f, -, rfl⟩
  · rfl
  · exact FdTable.get?_insert_of_ne _ _ (hk hwrite)

/-! ## All steps -/

theorem installHandles_cons :
    installHandles t slot (h :: hs) = .ok t' ↔
      ∃ t₁, installHandle t slot h = .ok t₁ ∧ installHandles t₁ (slot + 1) hs = .ok t' := by
  rw [installHandles]
  cases installHandle t slot h <;> simp

theorem lt_of_mem_writtenSlots (hk : k ∈ writtenSlots (slot + 1) hs) : slot < k := by
  induction hs generalizing slot with
  | nil => cases hk
  | cons h hs ih =>
    rw [writtenSlots] at hk
    split at hk
    · have := ih hk
      omega
    · rcases List.mem_cons.mp hk with rfl | hk
      · omega
      · have := ih hk
        omega

/-- **Run.** What is not among the `writtenSlots` is as it was. -/
theorem get?_installHandles (hok : installHandles t slot hs = .ok t')
    (hk : k ∉ writtenSlots slot hs) : t'.get? k = t.get? k := by
  induction hs generalizing t slot with
  | nil => cases hok; rfl
  | cons h hs ih =>
    obtain ⟨t₁, hstep, hrest⟩ := installHandles_cons.mp hok
    rw [writtenSlots] at hk
    by_cases hplace : h.InPlace slot
    · rw [if_pos hplace] at hk
      rw [ih hrest hk, get?_installHandle hstep fun hwrite => absurd hplace hwrite]
    · rw [if_neg hplace, List.mem_cons, not_or] at hk
      rw [ih hrest hk.2, get?_installHandle hstep fun _ => hk.1]

/-- Behind the first, `h`, of unspoiled handles the others are unspoiled, and the first step leaves
their sources as they were. -/
theorem Unspoiled.tail {t₁ : FdTable} (hu : Unspoiled slot (h :: hs))
    (hstep : installHandle t slot h = .ok t₁) :
    Unspoiled (slot + 1) hs ∧ ∀ g ∈ hs, t₁.get? g.source = t.get? g.source := by
  refine ⟨fun i g hg hmem => hu (i + 1) g (by simpa using hg) ?_, fun g hg => ?_⟩
  · rw [List.take_succ_cons, writtenSlots]
    split
    · exact hmem
    · exact .tail _ hmem
  · refine get?_installHandle hstep fun hwrite heq => ?_
    obtain ⟨i, hi⟩ := List.mem_iff_getElem?.mp hg
    apply hu (i + 1) g (by simpa using hi)
    rw [List.take_succ_cons, writtenSlots, if_neg hwrite, heq]
    exact .head _

/-- **Progress.** `Unspoiled` handles can be installed exactly if all sources that have to be read
are open at the start. -/
theorem exists_installHandles_iff (hu : Unspoiled slot hs) :
    (∃ t', installHandles t slot hs = .ok t') ↔
      ∀ (i : Nat) h, hs[i]? = some h → ¬ h.InPlace (slot + i) → t.isOpen h.source = true := by
  induction hs generalizing t slot with
  | nil => simp [installHandles]
  | cons g hs ih =>
    have hnext : ∀ i : Nat, slot + ((i + 1 : Nat) : Int) = slot + 1 + i := fun i => by omega
    -- A step leaves the later sources as they were, so that `ih` at `t₁` speaks of sources open in
    -- `t`.
    have hopen : ∀ {t₁ : FdTable}, installHandle t slot g = .ok t₁ → ∀ {i : Nat} {h : Handle},
        hs[i]? = some h → t₁.isOpen h.source = t.isOpen h.source := fun hstep _ _ hi => by
      simp only [FdTable.isOpen, (hu.tail hstep).2 _ (List.mem_of_getElem? hi)]
    constructor
    · rintro ⟨t', hok⟩ i h hi hwrite
      obtain ⟨t₁, hstep, hrest⟩ := installHandles_cons.mp hok
      cases i with
      | zero =>
        obtain rfl : g = h := by simpa using hi
        rcases installHandle_eq_ok.mp hstep with ⟨hplace, -⟩ | ⟨-, f, hf, -⟩
        · exact (hwrite (by simpa using hplace)).elim
        · exact FdTable.isOpen_iff.mpr ⟨f, hf⟩
      | succ i =>
        have hi : hs[i]? = some h := by simpa using hi
        rw [← hopen hstep hi]
        exact (ih (hu.tail hstep).1).mp ⟨t', hrest⟩ i h hi (hnext i ▸ hwrite)
    · intro hall
      obtain ⟨t₁, hstep⟩ : ∃ t₁, installHandle t slot g = .ok t₁ := by
        by_cases hplace : g.InPlace slot
        · exact ⟨t, installHandle_eq_ok.mpr (.inl ⟨hplace, rfl⟩)⟩
        · obtain ⟨f, hf⟩ := FdTable.isOpen_iff.mp (hall 0 g rfl (by simpa using hplace))
          exact ⟨_, installHandle_eq_ok.mpr (.inr ⟨hplace, f, hf, rfl⟩)⟩
      obtain ⟨t', hrest⟩ := (ih (t := t₁) (hu.tail hstep).1).mpr fun i h hi hwrite => by
        rw [hopen hstep hi]
        exact hall (i + 1) h (by simpa using hi) (hnext i ▸ hwrite)
      exact ⟨t', installHandles_cons.mpr ⟨t₁, hstep, hrest⟩⟩

/-- **Placement.** A handle `h` that is written is then in its slot, as its source was at the
start. -/
theorem get?_slot (hu : Unspoiled slot hs) (hok : installHandles t slot hs = .ok t') {i : Nat}
    (hi : hs[i]? = some h) (hwrite : ¬ h.InPlace (slot + i)) :
    ∃ f, t.file? h.source = some f ∧ t'.get? (slot + i) = some ⟨f, false⟩ := by
  induction hs generalizing t slot i with
  | nil => simp at hi
  | cons g hs ih =>
    obtain ⟨t₁, hstep, hrest⟩ := installHandles_cons.mp hok
    obtain ⟨htail, hsources⟩ := hu.tail hstep
    cases i with
    | zero =>
      obtain rfl : g = h := by simpa using hi
      rcases installHandle_eq_ok.mp hstep with ⟨hplace, -⟩ | ⟨-, f, hf, rfl⟩
      · exact (hwrite (by simpa using hplace)).elim
      · -- The steps that follow write higher slots.
        have hlater : slot ∉ writtenSlots (slot + 1) hs := fun hmem =>
          (Int.lt_irrefl _ (lt_of_mem_writtenSlots hmem))
        refine ⟨f, hf, ?_⟩
        simpa using get?_installHandles hrest hlater
    | succ i =>
      have hi : hs[i]? = some h := by simpa using hi
      have hnext : slot + ((i + 1 : Nat) : Int) = slot + 1 + i := by omega
      rw [hnext] at hwrite ⊢
      have hsame : t₁.file? h.source = t.file? h.source := by
        rw [FdTable.file?, hsources h (List.mem_of_getElem? hi), FdTable.file?]
      rw [← hsame]
      exact ih htail hrest hi hwrite

/-! ## The handles of a plan -/

/-- No slot is written before `listenerSlot`, that of the listener. -/
theorem writtenSlots_take (fd : Int) {i : Nat} (hi : (childHandles fd)[i]? = some h) :
    writtenSlots 0 ((childHandles fd).take i) = [] := by
  have hlt : i < 4 := (List.getElem?_eq_some_iff.mp hi).1
  match i with
  | 0 | 1 | 2 | 3 => rfl

/-- So the handles are `Unspoiled`, also if the fd of the listener is itself one of the slots. -/
theorem unspoiled_childHandles (fd : Int) : Unspoiled 0 (childHandles fd) := by
  intro i h hi
  rw [writtenSlots_take fd hi]
  exact List.not_mem_nil

/-- And only `listenerSlot` is written in the end. -/
theorem writtenSlots_childHandles (fd : Int) :
    writtenSlots 0 (childHandles fd) = [listenerSlot] := if_neg (not_inPlace_listener fd)

/-- The sources that have to be read are all but those of the standard streams. -/
theorem inPlace_childHandles_iff (fd : Int) {i : Nat} (hi : (childHandles fd)[i]? = some h) :
    ¬ h.InPlace (0 + i) ↔ i = 3 := by
  have hlt : i < 4 := (List.getElem?_eq_some_iff.mp hi).1
  match i with
  | 0 | 1 | 2 => cases hi; decide
  | 3 => cases hi; exact iff_of_true (not_inPlace_listener fd) rfl

namespace SpawnPlan

/-- **Installation.** The handles of a plan can be installed exactly if the listener is open at
`fd`, whichever number that is. The `listenerSlot` then refers to what `fd` referred to before, and
survives the execution of the program; all other fds, and so the standard streams, are as they were.
No step reads a slot that an earlier one has written: each source is as it was at the start. -/
theorem installHandles_ofProgram {program : OsText} {args : List OsText} {d : Descriptor} {fd : Int}
    {plan : SpawnPlan} (hplan : ofProgram program args d fd = .ok plan) (t : FdTable) :
    ((∃ t', installHandles t 0 plan.handles = .ok t') ↔ t.isOpen fd = true) ∧
    (∀ t', installHandles t 0 plan.handles = .ok t' →
      (∃ f, t.file? fd = some f ∧ t'.get? listenerSlot = some ⟨f, false⟩) ∧
        ∀ k, k ≠ listenerSlot → t'.get? k = t.get? k) ∧
    ∀ (i : Nat) h, plan.handles[i]? = some h →
      h.source ∉ writtenSlots 0 (plan.handles.take i) ∧
        ∀ t₁, installHandles t 0 (plan.handles.take i) = .ok t₁ →
          t₁.get? h.source = t.get? h.source := by
  obtain ⟨dir, -, rfl⟩ := ofProgram_eq_ok.mp hplan
  have hu := unspoiled_childHandles fd
  have hlistener : (childHandles fd)[3]? = some (.listener fd) := rfl
  refine ⟨?_, fun t' hok => ⟨?_, fun k hk => ?_⟩, fun i h hi => ⟨hu i h hi, fun t₁ hok => ?_⟩⟩
  · rw [exists_installHandles_iff hu]
    constructor
    · intro hall
      exact hall 3 _ hlistener ((inPlace_childHandles_iff fd hlistener).mpr rfl)
    · intro hopen i h hi hwrite
      obtain rfl := (inPlace_childHandles_iff fd hi).mp hwrite
      cases hi
      exact hopen
  · exact get?_slot hu hok hlistener ((inPlace_childHandles_iff fd hlistener).mpr rfl)
  · apply get?_installHandles hok
    rw [writtenSlots_childHandles]
    simpa using hk
  · exact get?_installHandles hok (hu i h hi)

/-- The listener's fd is the `listenerSlot` itself, which would not survive. -/
theorem installHandles_ofProgram_inPlace :
    ∃ plan t', ofProgram "/app" [] (.ofListener "/s" "") 3 = .ok plan ∧
      installHandles (FdTable.standard.insert 3 ⟨.socket 0, true⟩) 0 plan.handles = .ok t' ∧
      t'.get? 3 = some ⟨.socket 0, false⟩ ∧ t'.get? 1 = some ⟨.plain 1, false⟩ := by
  have hplan : ofProgram "/app" [] (.ofListener "/s" "") 3 = .ok ⟨"/app", [], "/",
      (listenerVariable, (Descriptor.ofListener "/s" "").encode), childHandles 3⟩ := by rfl
  obtain ⟨hiff, heffect, -⟩ :=
    installHandles_ofProgram hplan (FdTable.standard.insert 3 ⟨.socket 0, true⟩)
  obtain ⟨t', ht'⟩ := hiff.mpr (by decide)
  obtain ⟨⟨f, hf, hslot⟩, hothers⟩ := heffect t' ht'
  cases hf
  exact ⟨_, t', hplan, ht', hslot, hothers 1 (by decide)⟩

end SpawnPlan

end Handoff
