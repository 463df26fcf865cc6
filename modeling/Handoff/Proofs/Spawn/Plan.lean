import Handoff.Proofs.Fd.Table
import Handoff.Proofs.Path
import Handoff.Spawn.Plan

/-!
# What a plan does

* `installHandle_eq_ok`: one step writes its slot, or leaves a standard stream where it is.
* `installHandles_eq_ok`: the child's slots. The standard streams stay, the listener's file is put
  into the agreed slot wherever it was, and nothing else changes.
* `SpawnPlan.ofProgram_eq_ok`: what stands in a plan.
* `SpawnPlan.workingDir_ofProgram`: when there is a plan, and that its working directory is the
  directory of its program.
* `SpawnPlan.of_child`, `SpawnPlan.of_launch`: the child that is started.
-/

namespace Handoff

variable {t t' : FdTable} {slot fd : Int} {h : Handle}

/-- A standard stream in its own `slot`, which is left as it is. -/
def Handle.InPlace (h : Handle) (slot : Int) : Prop := h.source = slot ∧ slot ≤ lastStandardFd

instance (h : Handle) (slot : Int) : Decidable (h.InPlace slot) :=
  inferInstanceAs (Decidable (h.source = slot ∧ slot ≤ lastStandardFd))

/-- **Step.** A handle that is `InPlace` stays. Every other handle needs an open source, and its
slot then refers to the same file and survives the execution of the program. -/
theorem installHandle_eq_ok :
    installHandle t slot h = .ok t' ↔
      h.InPlace slot ∧ t' = t ∨
        ¬ h.InPlace slot ∧ ∃ f, t.file? h.source = some f ∧ t' = t.insert slot ⟨f, false⟩ := by
  unfold installHandle Handle.InPlace
  by_cases hsource : h.source = slot
  · by_cases hslot : lastStandardFd < slot
    · have hplace : ¬ slot ≤ lastStandardFd := Int.not_le.mpr hslot
      simp only [hsource, if_true, if_pos hslot, true_and, hplace, false_and, not_false_eq_true,
        false_or, FdTable.keepOnExec, FdTable.file?]
      cases t.get? slot <;> simp [eq_comm]
    · have hplace : slot ≤ lastStandardFd := Int.not_lt.mp hslot
      simp [hsource, hslot, hplace, eq_comm]
  · simp [hsource, FdTable.dupOnto_eq_ok]

/-- The fds of a child, by slot, with `listenerFd` for the last one. -/
def childHandles (listenerFd : Int) : List Handle :=
  [.stdin, .stdout, .stderr, .listener listenerFd]

theorem installHandles_standard (t : FdTable) {slot : Int} {h : Handle} (hs : List Handle)
    (hsource : h.source = slot) (hle : slot ≤ lastStandardFd) :
    installHandles t slot (h :: hs) = installHandles t (slot + 1) hs := by
  rw [installHandles, installHandle, if_pos hsource, if_neg (Int.not_lt.mpr hle)]

theorem installHandles_singleton (t : FdTable) (slot : Int) (h : Handle) :
    installHandles t slot [h] = installHandle t slot h := by
  rw [installHandles]
  cases installHandle t slot h <;> rfl

/-- So only the listener's slot is set up. -/
theorem installHandles_childHandles (t : FdTable) (fd : Int) :
    installHandles t 0 (childHandles fd) = installHandle t listenerSlot (.listener fd) :=
  calc installHandles t 0 (childHandles fd)
    _ = installHandles t 1 [.stdout, .stderr, .listener fd] :=
      installHandles_standard t _ rfl (by decide)
    _ = installHandles t 2 [.stderr, .listener fd] := installHandles_standard t _ rfl (by decide)
    _ = installHandles t listenerSlot [.listener fd] := installHandles_standard t _ rfl (by decide)
    _ = installHandle t listenerSlot (.listener fd) := installHandles_singleton t _ _

theorem not_inPlace_listener (fd : Int) : ¬ (Handle.listener fd).InPlace listenerSlot := fun h =>
  absurd h.2 (by decide)

/-- **Setup.** It succeeds exactly if the listener's `fd` is open, at any number, and it only puts
that file into the `listenerSlot`, where it survives the execution of the program. -/
theorem installHandles_eq_ok :
    installHandles t 0 (childHandles fd) = .ok t' ↔
      ∃ f, t.file? fd = some f ∧ t' = t.insert listenerSlot ⟨f, false⟩ := by
  rw [installHandles_childHandles, installHandle_eq_ok]
  simp [not_inPlace_listener, Handle.source]

namespace SpawnPlan

variable {s s' : System} {plan : SpawnPlan} {program : OsText} {args : List OsText}
  {d : Descriptor}

theorem ofProgram_eq_ok :
    ofProgram program args d fd = .ok plan ↔
      ∃ dir, Path.parent? program.chars = some dir ∧
        plan = ⟨program, args, ⟨dir⟩, (listenerVariable, d.encode),
          childHandles fd⟩ := by
  unfold ofProgram
  cases Path.parent? program.chars <;> simp [childHandles, eq_comm]

theorem ofProgram_eq_error {e : SpawnError} :
    ofProgram program args d fd = .error e ↔
      e = .noWorkingDir program ∧ Path.parent? program.chars = none := by
  unfold ofProgram
  cases Path.parent? program.chars <;> simp [eq_comm]

/-- **Working directory.** There is no plan exactly for a `program` whose path has no component
besides the root, which is the empty text or a spelling of the root, and then the error names the
program. Otherwise the text of `plan.workingDir` is a front part of that of the program, and has all
its components but the `last` one. -/
theorem workingDir_ofProgram (program : OsText) (args : List OsText) (d : Descriptor) (fd : Int) :
    (∀ e, ofProgram program args d fd = .error e ↔
      e = .noWorkingDir program ∧ ∀ c ∈ Path.components program.chars, c = .root) ∧
    ((∀ c ∈ Path.components program.chars, c = .root) ↔
      program.chars = [] ∨
        ∃ rest, program.chars = Path.slash :: rest ∧
          ∀ p ∈ Path.pieces rest, p = [] ∨ p = [Path.dot]) ∧
    ∀ plan, ofProgram program args d fd = .ok plan →
      plan.workingDir.chars <+: program.chars ∧
        ∃ last, last ≠ .root ∧ Path.components program.chars =
          Path.components plan.workingDir.chars ++ [last] := by
  refine ⟨fun e => ?_, Path.components_root_iff, fun plan hplan => ?_⟩
  · rw [ofProgram_eq_error]
    rcases Path.parent?_cases program.chars with ⟨hnone, hroot⟩ | ⟨dir, c, hsome, -, hc, hlist⟩
    · simpa [hnone] using fun _ => hroot
    · have hmem : c ∈ Path.components program.chars := by simp [hlist]
      simpa [hsome] using fun _ => ⟨c, hmem, hc⟩
  · obtain ⟨dir, hdir, rfl⟩ := ofProgram_eq_ok.mp hplan
    rcases Path.parent?_cases program.chars with ⟨hnone, -⟩ | ⟨dir', c, hsome, hpre, hc, hlist⟩
    · rw [hnone] at hdir
      cases hdir
    · rw [hsome] at hdir
      cases hdir
      exact ⟨hpre, c, hc, hlist⟩

/-- A path with all that does not count in it. -/
theorem workingDir_ofProgram_respelled :
    ∃ plan last, ofProgram "/./a//.././b/./" [] (.ofListener "/s" "") 100 = .ok plan ∧
      plan.workingDir = "/./a//.." ∧
      Path.components (OsText.ofString "/./a//.././b/./").chars =
        Path.components plan.workingDir.chars ++ [last] := by
  have h : ofProgram "/./a//.././b/./" [] (.ofListener "/s" "") 100 =
      .ok ⟨"/./a//.././b/./", [], "/./a//..",
        (listenerVariable, (Descriptor.ofListener "/s" "").encode), childHandles 100⟩ := by rfl
  obtain ⟨-, -, hplan⟩ := workingDir_ofProgram "/./a//.././b/./" [] (.ofListener "/s" "") 100
  obtain ⟨-, last, -, hlist⟩ := hplan _ h
  exact ⟨_, last, h, rfl, hlist⟩

/-- The child `p` of a plan: its fds are the ones that were set up and survive the execution, and
its environment has the variable of the plan. -/
theorem of_child {p : Process} (h : plan.child s = .ok p) :
    ∃ t, installHandles s.fds 0 plan.handles = .ok t ∧ p.fds = t.afterExec ∧
      p.env = s.self.env.set plan.entry.1 plan.entry.2 ∧ p.args = plan.args ∧
      p.pid = s.nextPid ∧ p.status = none := by
  unfold child at h
  split at h
  · cases h
  split at h
  · cases h
  rename_i t ht
  split at h
  · cases h
  simp only at h
  split at h
  · cases h
  · cases h; exact ⟨t, ht, rfl, rfl, rfl, rfl, rfl⟩

/-- A launch that succeeds adds the child `p` to the system and changes nothing else. -/
theorem of_launch {c : Child} (h : plan.launch s = (.ok c, s')) :
    ∃ p, plan.child s = .ok p ∧ c = ⟨s.nextPid, true, none⟩ ∧
      s' = { s with nextPid := s.nextPid + 1, others := p :: s.others } := by
  unfold launch at h
  split at h
  · cases h
  split at h
  · cases h
  · rename_i p hp; cases h; exact ⟨p, hp, rfl, rfl⟩

theorem of_launch_error {e : SpawnError} (h : plan.launch s = (.error e, s')) : s' = s := by
  unfold launch at h
  split at h
  · cases h; rfl
  split at h
  · cases h; rfl
  · cases h

end SpawnPlan

end Handoff
