import Handoff.Proofs.Spawn.Failure

/-!
# Launches are all or nothing

What a launch needs can be refused for reasons of the system that do not show in it: a table of fds
that is full, a program that has been deleted, a process that cannot be made. So the launches here
take such refusals besides, in any combination.

* `System.spawnUnder`: a launch under refusals; without any it is `System.spawnReplacement`.
* `SpawnStage.fault?`: what goes wrong at a stage, and `System.firstFault?`, at the first one.
* `System.spawnUnder_atomic`: the first fault is the error and nothing has changed, or there is no
  fault and one child was started, and the process that launches it is what it was on every path.
-/

namespace Handoff

/-- What the system refuses for reasons of its own: the `duplicate` of the listener, the path of the
`program` of this process, the `launch` of a plan. -/
structure Refusals where
  /-- The duplicate of the listener. -/
  duplicate : Option IoError := none
  /-- The path of the program of this process. -/
  program : Option IoError := none
  /-- The launch of a plan. -/
  launch : Option IoError := none
  deriving DecidableEq, Repr

/-- The export of `l` under refusals. -/
def Listener.exportUnder (r : Refusals) (l : Listener) (s : System) (address : String) :
    Except ExportError (Descriptor × Int) × System :=
  match l.streamFd?, r.duplicate with
  | some _, some e => (.error (.duplicate e), s)
  | _, _ => l.exportAs s address

/-- The launch of `p` under refusals. -/
def SpawnPlan.launchUnder (r : Refusals) (p : SpawnPlan) (s : System) :
    Except SpawnError Child × System :=
  match r.launch with
  | some e => (.error (.launch p.program e), s)
  | none => p.launch s

namespace System

/-- The plan of a replacement under the refusals `r`. -/
def planUnder (r : Refusals) (s : System) (d : Descriptor) (handle : Int) :
    Except SpawnError SpawnPlan :=
  match r.program with
  | some e => .error (.currentProgram e)
  | none => s.replacementPlan d handle

/-- The launch of a replacement that inherits an exported listener at `handle`, under the refusals
`r`. -/
def spawnExportedUnder (r : Refusals) (s : System) (address : String) (d : Descriptor)
    (handle : Int) : Outcome System SpawnError Child :=
  match s.planUnder r d handle with
  | .error e => ⟨.error e, s, []⟩
  | .ok plan =>
    let launching := Event.launching plan.program plan.workingDir handle plan.entry.2
    match plan.launchUnder r s with
    | (.error e, s') => ⟨.error e, s', [launching]⟩
    | (.ok child, s') =>
      ⟨.ok child, s', [launching, .spawned child.pid address d.debugName]⟩

/-- The launch of a replacement under the refusals `r`. -/
def spawnUnder (r : Refusals) (s : System) (address : String) (l : Listener) :
    Outcome System SpawnError Child :=
  match l.exportUnder r s address with
  | (.error e, s') => ⟨.error (.exporting e), s', []⟩
  | (.ok (d, handle), s') =>
    let o := s'.spawnExportedUnder r address d handle
    { o with state := o.state.drop handle }

/-- Nothing is refused: this is how `spawnReplacement` launches. -/
theorem spawnUnder_none (s : System) (address : String) (l : Listener) :
    s.spawnUnder {} address l = s.spawnReplacement address l := by
  have hexport : l.exportUnder {} s address = l.exportAs s address := by
    unfold Listener.exportUnder
    cases l.streamFd? <;> rfl
  unfold spawnUnder spawnReplacement
  rw [hexport]
  rfl

end System

/-! ## Faults by stage -/

/-- The stages of a launch. -/
inductive SpawnStage where
  /-- The kind of the listener is looked at. -/
  | kind
  /-- The fd of the listener is duplicated. -/
  | duplicate
  /-- The program of this process is looked up. -/
  | program
  /-- The directory of the program is taken. -/
  | workingDir
  /-- The child is started. -/
  | launch
  deriving DecidableEq, Repr

def failure? {ε α : Type} : Except ε α → Option ε
  | .error e => some e
  | .ok _ => none

namespace SpawnStage

def order : List SpawnStage := [.kind, .duplicate, .program, .workingDir, .launch]

/-- What goes wrong at a stage. The `launch` is that of the plan for the exported listener, so it
has no fault of its own where there is no plan. -/
def fault? (r : Refusals) (s : System) (address : String) (l : Listener) :
    SpawnStage → Option SpawnError
  | .kind => if l.kind.isStream then none else some (.exporting (.unsupported l.kind))
  | .duplicate =>
    (r.duplicate <|> failure? (s.fds.dupAbove l.fd exportFloor)).map (.exporting ∘ .duplicate)
  | .program =>
    (r.program <|> if s.self.program = none then some IoError.entityNotFound else none).map
      .currentProgram
  | .workingDir =>
    s.self.program.bind fun program =>
      if Path.parent? program.chars = none then some (.noWorkingDir program) else none
  | .launch =>
    match l.exportAs s address with
    | (.error _, _) => none
    | (.ok (d, handle), s') =>
      match s'.replacementPlan d handle with
      | .error _ => none
      | .ok plan => failure? (plan.launchUnder r s').1

end SpawnStage

/-- What goes wrong at the first `SpawnStage` at which something does. -/
def System.firstFault? (r : Refusals) (s : System) (address : String) (l : Listener) :
    Option SpawnError :=
  SpawnStage.order.findSome? (SpawnStage.fault? r s address l)

/-! ## All or nothing -/

/-- The outcome `o` is all or nothing for `fault`: with one it is the error and the system is as it
was, and without one a child was started, and nothing else happened. -/
def Outcome.AllOrNothing (s : System) (fault : Option SpawnError)
    (o : Outcome System SpawnError Child) : Prop :=
  match fault with
  | some e => o.result = .error e ∧ o.state = s
  | none => o.result = .ok ⟨s.nextPid, true, none⟩ ∧
      ∃ p, p.pid = s.nextPid ∧ p.status = none ∧ o.state = s.add p

section

variable {r : Refusals} {s s' : System} {address : String} {l : Listener} {d : Descriptor}
  {handle : Int}

/-- A launch is one process more or nothing, whatever `r` refuses. -/
theorem SpawnPlan.launchUnder_cases (r : Refusals) (plan : SpawnPlan) (s : System) :
    (∃ e, plan.launchUnder r s = (.error e, s)) ∨
      ∃ p, p.pid = s.nextPid ∧ p.status = none ∧
        plan.launchUnder r s = (.ok ⟨s.nextPid, true, none⟩, s.add p) := by
  unfold launchUnder
  split
  · exact .inl ⟨_, rfl⟩
  · rcases hl : plan.launch s with ⟨e | child, s'⟩
    · exact .inl ⟨e, by rw [of_launch_error hl]⟩
    · obtain ⟨p, hp, rfl, rfl⟩ := of_launch hl
      obtain ⟨-, -, -, -, -, hpid, hstatus⟩ := of_child hp
      exact .inr ⟨p, hpid, hstatus, rfl⟩

namespace System

/-- Behind the export: `planUnder` that fails is the fault, and then `launchUnder`. -/
theorem allOrNothing_spawnExportedUnder (r : Refusals) (s : System) (address : String)
    (d : Descriptor) (handle : Int) :
    (s.spawnExportedUnder r address d handle).AllOrNothing s
      (match s.planUnder r d handle with
        | .error e => some e
        | .ok plan => failure? (plan.launchUnder r s).1) := by
  unfold spawnExportedUnder
  cases s.planUnder r d handle with
  | error e => exact ⟨rfl, rfl⟩
  | ok plan =>
    rcases plan.launchUnder_cases r s with ⟨e, he⟩ | ⟨p, hpid, hstatus, hp⟩
    · simp only [he]
      exact ⟨rfl, rfl⟩
    · simp only [hp]
      exact ⟨rfl, p, hpid, hstatus, rfl⟩

/-- The duplicate at `handle` is gone afterwards, so what is all or nothing for the exporting system
is so for the one before the export. -/
theorem allOrNothing_drop {fault : Option SpawnError} {o : Outcome System SpawnError Child}
    {entry : FdEntry} (hfree : s.fds.get? handle = none)
    (h : o.AllOrNothing (s.withFds (s.fds.insert handle entry)) fault) :
    Outcome.AllOrNothing s fault { o with state := o.state.drop handle } := by
  have hdrop := drop_inserted s entry hfree
  cases fault with
  | some e =>
    obtain ⟨he, hs⟩ := h
    exact ⟨he, by rw [hs, hdrop]⟩
  | none =>
    obtain ⟨hc, p, hpid, hstatus, hs⟩ := h
    refine ⟨hc, p, hpid, hstatus, ?_⟩
    calc o.state.drop handle
      _ = ((s.withFds (s.fds.insert handle entry)).drop handle).add p := by rw [hs]; rfl
      _ = s.add p := by rw [hdrop]

/-- What goes wrong at the stages behind the export, as the exporting system meets it. -/
theorem findSome?_of_exported (hx : l.exportAs s address = (.ok (d, handle), s')) :
    [SpawnStage.program, .workingDir, .launch].findSome? (SpawnStage.fault? r s address l) =
      match s'.planUnder r d handle with
      | .error e => some e
      | .ok plan => failure? (plan.launchUnder r s').1 := by
  have hprogram : s'.self.program = s.self.program := (result_of_exported hx).2.1
  simp only [List.findSome?_cons, List.findSome?_nil, SpawnStage.fault?, hx, planUnder]
  cases r.program with
  | some e => rfl
  | none =>
    cases hp : s.self.program with
    | none => simp [replacementPlan, hprogram, hp]
    | some program =>
      cases hdir : Path.parent? program.chars with
      | none => simp [replacementPlan, hprogram, hp, SpawnPlan.ofProgram, hdir]
      | some dir =>
        simp only [replacementPlan, hprogram, hp, SpawnPlan.ofProgram, hdir]
        cases failure? _ <;> simp [hdir]

/-- A launch is all or nothing for its `firstFault?`. -/
theorem allOrNothing_spawnUnder (r : Refusals) (s : System) (address : String) (l : Listener) :
    (s.spawnUnder r address l).AllOrNothing s (s.firstFault? r address l) := by
  unfold spawnUnder firstFault? SpawnStage.order
  -- The first two stages come before the duplicate, so what fails there has nothing to take back.
  -- Behind them, `allOrNothing_drop` takes it back.
  cases hk : l.kind.isStream with
  | false => simp [SpawnStage.fault?, Listener.exportUnder, exportAs_of_unsupported,
      Listener.streamFd?, hk, Outcome.AllOrNothing]
  | true =>
    have hkind : SpawnStage.fault? r s address l .kind = none := by simp [SpawnStage.fault?, hk]
    rw [List.findSome?_cons, hkind]
    cases hr : r.duplicate with
    | some e => simp [SpawnStage.fault?, Listener.exportUnder, Listener.streamFd?, hk, hr,
        Outcome.AllOrNothing]
    | none =>
      have hexport : l.exportUnder r s address = l.exportAs s address := by
        simp [Listener.exportUnder, Listener.streamFd?, hk, hr]
      cases hf : s.fds.file? l.fd with
      | none => simp [SpawnStage.fault?, hexport, exportAs_of_not_open hk hf, hr, failure?,
          FdTable.dupAbove, hf, Outcome.AllOrNothing]
      | some f =>
        obtain ⟨d, handle, t, hx⟩ := exportAs_of_exportable ⟨hk, f, hf⟩ address
        have hdup : SpawnStage.fault? r s address l .duplicate = none := by
          simp [SpawnStage.fault?, hr, failure?, FdTable.dupAbove, hf]
        rw [List.findSome?_cons, hdup, hexport, hx, findSome?_of_exported hx]
        obtain ⟨-, f, -, rfl, ht, -⟩ := Listener.exportAs_eq_ok.mp hx
        rw [ht]
        exact allOrNothing_drop (FdTable.get?_lowestFree _ _)
          (allOrNothing_spawnExportedUnder r _ address d _)

/-- **Atomicity.** Whatever the listener, the fds, the program and its arguments are, and whatever
the system refuses, a launch returns the error of the first stage that has a fault (`firstFault?`),
and a child if there is none. It starts one child if it returns one, and nothing has changed if it
does not. On every path the launching process has the fds, the variables and all else that it had,
and the sockets and files are the same. Where nothing is refused this is `spawnReplacement`. -/
theorem spawnUnder_atomic (r : Refusals) (s : System) (address : String) (l : Listener) :
    let o := s.spawnUnder r address l
    o.result = (match s.firstFault? r address l with
      | some e => .error e
      | none => .ok ⟨s.nextPid, true, none⟩) ∧
    ((∃ c, o.result = .ok c) ↔
      ∃ p, p.pid = s.nextPid ∧ p.status = none ∧ o.state = s.add p) ∧
    ((∃ e, o.result = .error e) ↔ o.state = s) ∧
    o.state.self = s.self ∧ o.state.sockets = s.sockets ∧ o.state.files = s.files ∧
    s.spawnUnder {} address l = s.spawnReplacement address l := by
  intro o
  have hadd : ∀ p, s.add p ≠ s := fun p h =>
    Nat.succ_ne_self s.nextPid (congrArg System.nextPid h)
  have h : o.AllOrNothing s (s.firstFault? r address l) := allOrNothing_spawnUnder r s address l
  cases hfault : s.firstFault? r address l with
  | some e =>
    rw [hfault] at h
    obtain ⟨he, hs⟩ := h
    have hstay : ∀ p, s ≠ s.add p := fun p => (hadd p).symm
    refine ⟨he, ?_, ?_, ?_, ?_, ?_, spawnUnder_none s address l⟩ <;> simp [he, hs, hstay]
  | none =>
    rw [hfault] at h
    obtain ⟨hc, p, hpid, hstatus, hs⟩ := h
    refine ⟨hc, ?_, ?_, ?_, ?_, ?_, spawnUnder_none s address l⟩
    · exact ⟨fun _ => ⟨p, hpid, hstatus, hs⟩, fun _ => ⟨_, hc⟩⟩
    · simp [hc, hs, hadd]
    all_goals rw [hs]; rfl

end System

end

end Handoff
