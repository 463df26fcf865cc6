import Handoff.Proofs.Export
import Handoff.Proofs.Spawn.Plan
import Handoff.Proofs.System.Processes
import Handoff.Spawn.Replacement

/-!
# What the launch of a replacement does

* `System.of_spawnExported`: a launch starts the process of the plan and does nothing else.
* `System.spawnReplacement_error`: an attempt that fails leaves nothing behind, wherever it failed.
-/

namespace Handoff

namespace System

variable {s s' : System} {address : String} {d : Descriptor} {handle : Int}

theorem spawnExported_error {e : SpawnError}
    (h : (s.spawnExported address d handle).result = .error e) :
    (s.spawnExported address d handle).state = s := by
  unfold spawnExported at h ⊢
  split
  · rfl
  · rename_i plan hp
    simp only [hp] at h
    rcases hl : plan.launch s with ⟨e | child, s'⟩
    · exact SpawnPlan.of_launch_error hl
    · simp [hl] at h

/-- **Failure.** If no replacement was launched, be it for the export, the plan or the launch,
`state` is as it was before, without the duplicate. -/
theorem spawnReplacement_error {l : Listener} {e : SpawnError}
    (h : (s.spawnReplacement address l).result = .error e) :
    (s.spawnReplacement address l).state = s := by
  unfold spawnReplacement at h ⊢
  split
  · rename_i hx
    exact Listener.exportAs_eq_error hx
  · rename_i d handle s₁ hx
    simp only [hx] at h
    obtain ⟨-, f, -, rfl, rfl, -⟩ := Listener.exportAs_eq_ok.mp hx
    show System.drop (spawnExported _ _ _ _).state _ = s
    rw [spawnExported_error h]
    exact drop_inserted s _ (FdTable.get?_lowestFree _ _)

/-- The child runs the program of its parent once more, with the next process number. -/
theorem of_spawnExported {child : Child} {events : List Event}
    (h : s.spawnExported address d handle = ⟨.ok child, s', events⟩) :
    ∃ program plan p, s.self.program = some program ∧
      SpawnPlan.ofProgram program s.self.args d handle = .ok plan ∧ plan.child s = .ok p ∧
      child.pid = s.nextPid ∧ s' = s.add p := by
  unfold spawnExported replacementPlan at h
  cases hprog : s.self.program with
  | none => simp [hprog] at h
  | some program =>
    cases hplan : SpawnPlan.ofProgram program s.self.args d handle with
    | error e => simp [hprog, hplan] at h
    | ok plan =>
      rcases hl : plan.launch s with ⟨e | c, t⟩
      · simp [hprog, hplan, hl] at h
      · simp only [hprog, hplan, hl, Outcome.mk.injEq, Except.ok.injEq] at h
        obtain ⟨rfl, rfl, -⟩ := h
        obtain ⟨p, hp, rfl, rfl⟩ := SpawnPlan.of_launch hl
        exact ⟨program, plan, p, rfl, hplan, hp, rfl, rfl⟩

end System

end Handoff
