import Handoff.Descriptor.Reader
import Handoff.Export

/-!
# Spawn plans

All that is needed to launch a child, settled before any process exists: program, arguments,
working directory, the one variable that is added to the environment and the four fds that the child
gets. `SpawnPlan.launch` starts the child or changes nothing.

* `installHandles`: the fd table of the child before its program is executed.
* `SpawnPlan.launch`: the child, or the first thing that went wrong.
-/

namespace Handoff

/-- An entry of the fd table of a child; its position there is its slot. -/
inductive Handle where
  | stdin
  | stdout
  | stderr
  /-- An exported listener, by its fd in the parent. -/
  | listener (fd : Int)
  deriving DecidableEq, Repr

/-- The fd in the parent. -/
def Handle.source : Handle → Int
  | .stdin => 0
  | .stdout => 1
  | .stderr => 2
  | .listener fd => fd

/-- Why no child was launched. -/
inductive SpawnError where
  /-- The listener cannot be exported. -/
  | exporting (source : ExportError)
  /-- The descriptor is wrong. -/
  | descriptor (source : Descriptor.Error)
  /-- The program of this process is unknown. -/
  | currentProgram (source : IoError)
  /-- The `program` has no parent directory. -/
  | noWorkingDir (program : OsText)
  /-- The system refused the launch. -/
  | launch (program : OsText) (source : IoError)
  deriving DecidableEq, Repr

def SpawnError.message : SpawnError → String
  | .exporting e => e.message
  | .descriptor e => e.message
  | .currentProgram e => s!"failed to resolve current executable: {e.message}"
  | .noWorkingDir program => s!"executable {program.display} has no parent directory"
  | .launch program e => s!"failed to launch {program.display}: {e.message}"

/-- What is needed to launch a child. -/
structure SpawnPlan where
  /-- The path of the program. -/
  program : OsText
  /-- The arguments behind the name of the program. -/
  args : List OsText
  workingDir : OsText
  /-- The variable that is added to the environment. -/
  entry : String × String
  /-- The fd table of the child. -/
  handles : List Handle
  deriving DecidableEq, Repr

def lastStandardFd : Int := 2

/-- Puts the source of `h` into `slot`. A source that is in its slot already only has to survive the
execution of the program, which the standard streams do anyway. -/
def installHandle (t : FdTable) (slot : Int) (h : Handle) : Except IoError FdTable :=
  if h.source = slot then (if lastStandardFd < slot then t.keepOnExec slot else .ok t)
  else t.dupOnto h.source slot

/-- Puts the sources of the handles into the slots from `slot` up, one after the other. -/
def installHandles (t : FdTable) (slot : Int) : List Handle → Except IoError FdTable
  | [] => .ok t
  | h :: hs =>
    match installHandle t slot h with
    | .error e => .error e
    | .ok t' => installHandles t' (slot + 1) hs

/-- A launched child, as its parent knows it. -/
structure Child where
  pid : Nat
  /-- Whether this process can collect its status. -/
  tracked : Bool
  /-- Its status, once it has been collected. -/
  status : Option ExitStatus := none
  deriving DecidableEq, Repr

namespace Child

/-- A child that is known by its number only, so that nobody can collect its status. -/
def untracked (pid : Nat) : Child := ⟨pid, false, none⟩

/-- Asks for the status of a child, which is `none` while it runs. -/
def poll (c : Child) (s : System) : Except IoError (Option ExitStatus) × Child × System :=
  if !c.tracked then (.ok none, c, s)
  else
    match c.status with
    | some st => (.ok (some st), c, s)
    | none =>
      match s.collect c.pid with
      | .error e => (.error e, c, s)
      | .ok (st, s') => (.ok st, { c with status := st }, s')

end Child

namespace SpawnPlan

/-- The plan that launches `program` with the listener at `listenerFd` for its child. -/
def ofProgram (program : OsText) (args : List OsText) (d : Descriptor) (listenerFd : Int) :
    Except SpawnError SpawnPlan :=
  match Path.parent? program.chars with
  | none => .error (.noWorkingDir program)
  | some dir =>
    .ok ⟨program, args, ⟨dir⟩, (listenerVariable, d.encode),
      [.stdin, .stdout, .stderr, .listener listenerFd]⟩

/-- Whether the program, an argument or the added variable holds a NUL, which the system cannot pass
on. -/
def holdsNul (p : SpawnPlan) : Bool :=
  p.program.contains '\x00' || p.args.any (·.contains '\x00') ||
    p.entry.1.toList.contains '\x00' || p.entry.2.toList.contains '\x00'

/-- The least size of a text, in bytes, that the system does not hand to a program. -/
def textLimit : Nat := 0x20000

/-- The size of all texts that the system hands to a program, and of their places, at most. -/
def listLimit : Nat := 0x200000

/-- The sizes of the texts that the program of a plan is given: its name, its arguments and its
variables, which are those of `env`. -/
def textSizes (p : SpawnPlan) (env : Environment) : List Nat :=
  p.program.size :: p.args.map OsText.size ++
    env.entries.map fun (name, value) => name.size + 1 + value.size

/-- Whether the system refuses to hand over the texts of a plan. Each of them has an end of one byte
and a place of eight, and the path of the program is handed over besides. -/
def isTooLong (p : SpawnPlan) (env : Environment) : Bool :=
  let sizes := p.textSizes env
  sizes.any (textLimit ≤ ·) ||
    listLimit < sizes.foldl (fun n size => n + size + 9) (p.program.size + 1)

/-- The child of a plan: it enters its `workingDir`, sets up its fds and executes the program, which
is looked up from the new directory. -/
def child (p : SpawnPlan) (s : System) : Except IoError Process :=
  match s.files.enter s.self.cwd p.workingDir with
  | .error e => .error e
  | .ok cwd =>
    match installHandles s.fds 0 p.handles with
    | .error e => .error e
    | .ok t =>
      match s.files.executable cwd p.program with
      | .error e => .error e
      | .ok program =>
        let env := s.self.env.set p.entry.1 p.entry.2
        if p.isTooLong env then .error .argumentListTooLong
        else .ok ⟨s.nextPid, t.afterExec, env, cwd, some program, p.args, none⟩

def launch (p : SpawnPlan) (s : System) : Except SpawnError Child × System :=
  if p.holdsNul then (.error (.launch p.program (.invalidInput .argumentWithNul)), s)
  else
    match p.child s with
    | .error e => (.error (.launch p.program e), s)
    | .ok process =>
      (.ok ⟨s.nextPid, true, none⟩,
        { s with nextPid := s.nextPid + 1, others := process :: s.others })

end SpawnPlan

end Handoff
