import Handoff.Descriptor.Basic
import Handoff.Listener

/-!
# Exporting a listener

What a child needs of a listener: the descriptor and an fd to inherit. The fd is a duplicate that
closes on execution, above all slots that are set up in the child, and whoever exports a listener
drops it after the launch.
-/

namespace Handoff

/-- Why a listener cannot be exported. -/
inductive ExportError where
  /-- Listeners of this `kind` accept no streams. -/
  | unsupported (kind : ListenerKind)
  /-- The fd cannot be duplicated. -/
  | duplicate (source : IoError)
  deriving DecidableEq, Repr

def ExportError.message : ExportError → String
  | .unsupported kind => s!"unsupported listener type: {kind.display}"
  | .duplicate e => s!"failed to duplicate listener fd: {e.message}"

/-- The least fd of an exported duplicate, clear of the slots in the child. -/
def exportFloor : Int := 100

/-- Exports `l` under `address`: its descriptor, and a duplicate of its fd from `exportFloor` up. -/
def Listener.exportAs (l : Listener) (s : System) (address : String) :
    Except ExportError (Descriptor × Int) × System :=
  match l.streamFd? with
  | none => (.error (.unsupported l.kind), s)
  | some fd =>
    match s.fds.dupAbove fd exportFloor with
    | .error e => (.error (.duplicate e), s)
    | .ok (handle, t) =>
      let s' := s.withFds t
      (.ok (.ofListener address (l.debugName s'), handle), s')

end Handoff
