import Handoff.Outcome
import Handoff.Spawn.Plan

/-!
# Spawning a replacement

A server replaces itself by launching its own program once more, with its own arguments, and with
its listener at the agreed slot. The exported duplicate of the listener lives for the call only, on
every path.
-/

namespace Handoff

namespace System

/-- The plan that launches the program of this process once more, for the descriptor `d`. -/
def replacementPlan (s : System) (d : Descriptor) (listenerFd : Int) :
    Except SpawnError SpawnPlan :=
  match s.self.program with
  | none => .error (.currentProgram .entityNotFound)
  | some program => SpawnPlan.ofProgram program s.self.args d listenerFd

/-- Launches a replacement that inherits the exported listener at `handle`. -/
def spawnExported (s : System) (address : String) (d : Descriptor) (handle : Int) :
    Outcome System SpawnError Child :=
  match s.replacementPlan d handle with
  | .error e => ⟨.error e, s, []⟩
  | .ok plan =>
    let launching := Event.launching plan.program plan.workingDir handle plan.entry.2
    match plan.launch s with
    | (.error e, s') => ⟨.error e, s', [launching]⟩
    | (.ok child, s') =>
      ⟨.ok child, s', [launching, .spawned child.pid address d.debugName]⟩

/-- Launches a replacement for the listener `l` of `address`: an export, and `spawnExported`, behind
which the duplicate is given up. -/
def spawnReplacement (s : System) (address : String) (l : Listener) :
    Outcome System SpawnError Child :=
  match l.exportAs s address with
  | (.error e, s') => ⟨.error (.exporting e), s', []⟩
  | (.ok (d, handle), s') =>
    let o := s'.spawnExported address d handle
    { o with state := o.state.drop handle }

end System

end Handoff
