import Handoff.CommandLine
import Handoff.Event
import Handoff.System.Environment

/-!
# Configuration

Each of the two settings of the server comes from the command line, else from the environment, else
from the defaults, and independently of the other. A number in the environment that cannot be read
counts as absent.
-/

namespace Handoff

/-- The settings in effect. -/
structure Config where
  addr : String
  /-- How long to wait for connections at the end. -/
  drainTimeout : Duration
  deriving DecidableEq, Repr

namespace Config

def defaultAddr : String := "127.0.0.1:9000"

def defaultDrainTimeoutSecs : Nat := 30

def addrVariable : String := "SHED_ADDR"

def drainTimeoutVariable : String := "SHED_DRAIN_TIMEOUT_SECS"

def default : Config := ⟨defaultAddr, .ofSeconds defaultDrainTimeoutSecs⟩

/-- The seconds that `drainTimeoutVariable` holds, if it can be read. -/
def readSeconds? (e : Environment) : Option Nat :=
  (e.getText? drainTimeoutVariable).bind fun s => (Decimal.read64 s).toOption

/-- The settings of the environment `e`. -/
def ofEnvironment (e : Environment) : Config :=
  ⟨(e.getText? addrVariable).getD defaultAddr,
    .ofSeconds ((readSeconds? e).getD defaultDrainTimeoutSecs)⟩

/-- The settings `c` under a command line: what `line` asks for is in effect. -/
def override (c : Config) (line : CommandLine) : Config :=
  ⟨line.addr.getD c.addr, (line.drainTimeoutSecs.map .ofSeconds).getD c.drainTimeout⟩

def events (c : Config) : List Event := [.bindAddress c.addr, .drainTimeout c.drainTimeout]

end Config

end Handoff
