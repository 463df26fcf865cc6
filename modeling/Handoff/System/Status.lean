/-!
# Exit statuses

How a process ended.
-/

namespace Handoff

/-- How a process ended. -/
inductive ExitStatus where
  /-- It returned this code. -/
  | code (n : Nat)
  | killed
  deriving DecidableEq, Repr

/-- The status of a process that returned `n`, of which only the lowest byte is kept. -/
def ExitStatus.ofReturn (n : Int) : ExitStatus := .code (n % 256).toNat

def ExitStatus.display : ExitStatus → String
  | .code n => s!"exit status: {n}"
  | .killed => "signal: 9 (SIGKILL)"

end Handoff
