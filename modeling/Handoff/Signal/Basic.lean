/-!
# Signals

The requests that an operator can make of a running server, and the signals of the operating
system that stand for them.
-/

namespace Handoff

/-- A request of the operator. -/
inductive Signal where
  /-- Launch a replacement, then stop accepting here. -/
  | reloadRetire
  /-- Launch one more acceptor and keep serving. -/
  | reloadCoexist
  /-- Close the listener and leave the control loop. -/
  | shutdown
  deriving DecidableEq, Repr

def Signal.display : Signal → String
  | .reloadRetire => "reload-and-retire"
  | .reloadCoexist => "reload-and-coexist"
  | .shutdown => "shutdown"

inductive OsSignal where
  /-- Hangup. -/
  | hup
  /-- The second user signal. -/
  | usr2
  /-- Interrupt. -/
  | int
  /-- Quit. -/
  | quit
  deriving DecidableEq, Repr

def OsSignal.name : OsSignal → String
  | .hup => "SIGHUP"
  | .usr2 => "SIGUSR2"
  | .int => "SIGINT"
  | .quit => "SIGQUIT"

def OsSignal.request : OsSignal → Signal
  | .hup => .reloadRetire
  | .usr2 => .reloadCoexist
  | .int => .shutdown
  | .quit => .shutdown

end Handoff
