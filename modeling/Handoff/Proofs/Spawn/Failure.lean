import Handoff.Proofs.Spawn.Replacement

/-!
# Where the launch of a replacement fails

A replacement is launched in three stages: the listener is exported, the plan is made, and the plan
is carried out. The first thing that goes wrong is the failure of the whole.

* `System.SpawnFault`: the failures by stage, each with what causes it.
* `System.spawnReplacement_error_iff`: there are no other failures, and none of these is passed
  over.
-/

namespace Handoff

/-- `l` accepts streams and its fd is open, so it can be exported. -/
def Listener.Exportable (l : Listener) (s : System) : Prop :=
  l.kind.isStream = true ∧ ∃ f, s.fds.file? l.fd = some f

theorem SpawnPlan.launch_error_eq {p : SpawnPlan} {s : System} {e : SpawnError}
    (h : (p.launch s).1 = .error e) : ∃ cause, e = .launch p.program cause := by
  unfold launch at h
  split at h
  · cases h; exact ⟨_, rfl⟩
  · split at h
    · cases h; exact ⟨_, rfl⟩
    · cases h

namespace System

/-- The first thing that goes wrong when a replacement is launched. -/
inductive SpawnFault (s : System) (address : String) (l : Listener) : SpawnError → Prop
  /-- Export: listeners of the kind are not exported. -/
  | unsupported : l.kind.isStream = false →
      SpawnFault s address l (.exporting (.unsupported l.kind))
  /-- Export: the fd is closed. -/
  | notOpen : l.kind.isStream = true → s.fds.file? l.fd = none →
      SpawnFault s address l (.exporting (.duplicate .badDescriptor))
  /-- Plan: the program of this process is unknown. -/
  | unknownProgram : l.Exportable s → s.self.program = none →
      SpawnFault s address l (.currentProgram .entityNotFound)
  /-- Plan: the `program` has no parent directory. -/
  | noWorkingDir {program : OsText} : l.Exportable s → s.self.program = some program →
      Path.parent? program.chars = none → SpawnFault s address l (.noWorkingDir program)
  /-- Launch: the system refuses the `plan` for the exported listener. -/
  | launch {s' : System} {d : Descriptor} {handle : Int} {program : OsText} {plan : SpawnPlan}
      {cause : IoError} : l.exportAs s address = (.ok (d, handle), s') →
      s.self.program = some program →
      SpawnPlan.ofProgram program s.self.args d handle = .ok plan →
      (plan.launch s').1 = .error (.launch plan.program cause) →
      SpawnFault s address l (.launch plan.program cause)

variable {s : System} {address : String} {l : Listener} {e : SpawnError}

theorem exportAs_of_exportable (h : l.Exportable s) (address : String) :
    ∃ d handle t, l.exportAs s address = (.ok (d, handle), s.withFds t) := by
  obtain ⟨hk, f, hf⟩ := h
  exact ⟨_, _, _, Listener.exportAs_eq_ok.mpr ⟨hk, f, hf, rfl, rfl, rfl⟩⟩

theorem exportAs_of_not_open (hk : l.kind.isStream = true) (hf : s.fds.file? l.fd = none)
    (address : String) : l.exportAs s address = (.error (.duplicate .badDescriptor), s) := by
  simp [Listener.exportAs, Listener.streamFd?, hk, FdTable.dupAbove, hf]

theorem exportAs_of_unsupported (hk : l.kind.isStream = false) (address : String) :
    l.exportAs s address = (.error (.unsupported l.kind), s) := by
  simp [Listener.exportAs, Listener.streamFd?, hk]

theorem result_of_exported {d : Descriptor} {handle : Int} {s' : System}
    (hx : l.exportAs s address = (.ok (d, handle), s')) :
    (s.spawnReplacement address l).result = (s'.spawnExported address d handle).result ∧
      s'.self.program = s.self.program ∧ s'.self.args = s.self.args := by
  obtain ⟨-, f, -, -, rfl, -⟩ := Listener.exportAs_eq_ok.mp hx
  refine ⟨?_, rfl, rfl⟩
  simp [spawnReplacement, hx]

/-- Behind the export, the plan may fail and then its launch. -/
theorem spawnExported_error_iff {d : Descriptor} {handle : Int} :
    (s.spawnExported address d handle).result = .error e ↔
      s.self.program = none ∧ e = .currentProgram .entityNotFound ∨
      ∃ program, s.self.program = some program ∧
        (Path.parent? program.chars = none ∧ e = .noWorkingDir program ∨
          ∃ plan, SpawnPlan.ofProgram program s.self.args d handle = .ok plan ∧
            (plan.launch s).1 = .error e) := by
  unfold spawnExported replacementPlan
  cases s.self.program with
  | none => simp [eq_comm]
  | some program =>
    simp only [reduceCtorEq, false_and, false_or, Option.some.injEq, exists_eq_left']
    cases hdir : Path.parent? program.chars with
    | none => simp [SpawnPlan.ofProgram, hdir, eq_comm]
    | some dir =>
      simp only [SpawnPlan.ofProgram, hdir, reduceCtorEq, false_and, false_or, Except.ok.injEq,
        exists_eq_left']
      generalize SpawnPlan.mk _ _ _ _ _ = plan
      rcases plan.launch s with ⟨e' | child, s'⟩ <;> simp

/-- **Faults.** A launch fails exactly with its `SpawnFault`. -/
theorem spawnReplacement_error_iff :
    (s.spawnReplacement address l).result = .error e ↔ s.SpawnFault address l e := by
  constructor
  · intro h
    -- Each stage is taken only if all before it have passed, so the cases are split in their order.
    by_cases hk : l.kind.isStream = true
    · cases hf : s.fds.file? l.fd with
      | none =>
        simp only [spawnReplacement, exportAs_of_not_open hk hf] at h
        cases h
        exact .notOpen hk hf
      | some f =>
        have hx : l.Exportable s := ⟨hk, f, hf⟩
        obtain ⟨d, handle, t, hexp⟩ := exportAs_of_exportable hx address
        obtain ⟨hres, hprogram, hargs⟩ := result_of_exported hexp
        rw [hres, spawnExported_error_iff, hprogram, hargs] at h
        rcases h with ⟨hnone, rfl⟩ | ⟨program, hsome, ⟨hdir, rfl⟩ | ⟨plan, hplan, hlaunch⟩⟩
        · exact .unknownProgram hx hnone
        · exact .noWorkingDir hx hsome hdir
        · obtain ⟨cause, rfl⟩ := SpawnPlan.launch_error_eq hlaunch
          exact .launch hexp hsome hplan hlaunch
    · simp only [Bool.not_eq_true] at hk
      simp only [spawnReplacement, exportAs_of_unsupported hk] at h
      cases h
      exact .unsupported hk
  · intro h
    cases h with
    | unsupported hk => simp [spawnReplacement, exportAs_of_unsupported hk]
    | notOpen hk hf => simp [spawnReplacement, exportAs_of_not_open hk hf]
    | unknownProgram hx hnone =>
      obtain ⟨d, handle, t, hexp⟩ := exportAs_of_exportable hx address
      obtain ⟨hres, hprogram, -⟩ := result_of_exported hexp
      rw [hres, spawnExported_error_iff, hprogram]
      exact .inl ⟨hnone, rfl⟩
    | noWorkingDir hx hsome hdir =>
      obtain ⟨d, handle, t, hexp⟩ := exportAs_of_exportable hx address
      obtain ⟨hres, hprogram, -⟩ := result_of_exported hexp
      rw [hres, spawnExported_error_iff, hprogram]
      exact .inr ⟨_, hsome, .inl ⟨hdir, rfl⟩⟩
    | launch hexp hsome hplan hlaunch =>
      obtain ⟨hres, hprogram, hargs⟩ := result_of_exported hexp
      rw [hres, spawnExported_error_iff, hprogram, hargs]
      exact .inr ⟨_, hsome, .inr ⟨_, hplan, hlaunch⟩⟩

end System

end Handoff
