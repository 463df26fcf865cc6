import Handoff.Descriptor.Reader
import Handoff.Duration
import Handoff.IoError
import Handoff.Signal.Basic
import Handoff.System.Status
import Handoff.Text.OsText

/-!
# Events

What a process reports while it runs, as values: every transition has an event of its own, so the
log tells what happened. `Event.record` gives the line that is written for an event.
-/

namespace Handoff

/-- Why a listener is released. -/
inductive Reason where
  /-- A replacement has taken over. -/
  | retire
  | shutdown
  deriving DecidableEq, Repr

def Reason.display : Reason → String
  | .retire => "retire"
  | .shutdown => "shutdown"

/-- What a process reports. -/
inductive Event where
  /-- No descriptor was handed over. -/
  | coldStart
  /-- The descriptor handed over cannot be read. -/
  | descriptorIgnored (error : Descriptor.Error)
  /-- The descriptor handed over was made for another address. -/
  | otherAddress (requested inherited : String)
  /-- A listener was inherited. -/
  | imported (address : String) (fd : Int) (name : String)
  /-- A listener was bound. -/
  | created (address name : String)
  /-- A child is about to be launched. -/
  | launching (program dir : OsText) (fd : Int) (descriptor : String)
  /-- A child was launched. -/
  | spawned (pid : Nat) (address name : String)
  /-- A request is handled. -/
  | signalReceived (signal : Signal)
  /-- A request came after the end. -/
  | alreadyTerminated (signal : Signal)
  /-- A reload launched a child. -/
  | forked (pid : Nat) (retire : Bool)
  | reloadFailed (address error : String)
  /-- A reload found no listener. -/
  | nothingToHandOff (address : String)
  /-- The listener was closed. -/
  | closed (reason : Reason) (name : String)
  /-- The listener could not be closed. -/
  | closeFailed (reason : Reason) (name : String) (error : IoError)
  /-- The listener had been released before. -/
  | alreadyReleased (reason : Reason)
  /-- The control loop starts. -/
  | waiting (address : String)
  /-- The source of requests is gone. -/
  | channelClosed
  | childExited (pid : Nat) (status : ExitStatus)
  | pollFailed (pid : Nat) (error : IoError)
  /-- A signal was put into the queue. -/
  | forwarded (raw : OsSignal)
  /-- A signal was dropped, for its request is in the queue. -/
  | coalesced (raw : OsSignal)
  /-- A signal waits for another request to be taken. -/
  | queueing (raw : OsSignal)
  /-- The forwarding of signals ends. -/
  | forwardingStopped
  /-- A drain waits for connections. -/
  | draining (active : Nat) (timeout : Duration)
  /-- A drain saw all connections finish. -/
  | drained
  /-- A drain ran out of time. -/
  | gaveUp (stillOpen : Nat)
  /-- The accept loop starts. -/
  | accepting
  /-- The accept loop ends. -/
  | stoppedAccepting (active : Nat)
  | connectionAccepted (peer : String)
  /-- A connection was served to its end. -/
  | connectionClosed (peer : String) (lines : Nat)
  | connectionFailed (peer error : String)
  /-- The `address` in effect. -/
  | bindAddress (address : String)
  /-- The drain timeout in effect. -/
  | drainTimeout (timeout : Duration)
  deriving DecidableEq, Repr

inductive Level where
  /-- For diagnosis. -/
  | debug
  /-- The normal course. -/
  | info
  /-- Something is off. -/
  | warn
  | error
  deriving DecidableEq, Repr

inductive FieldValue where
  | number (n : Int)
  | flag (b : Bool)
  | text (s : String)
  deriving DecidableEq, Repr

/-- The line written for an event. -/
structure Record where
  /-- How much it matters. -/
  level : Level
  message : String
  /-- The fields by name. -/
  fields : List (String × FieldValue)
  deriving DecidableEq, Repr

namespace Event

def signalFields (raw : OsSignal) : List (String × FieldValue) :=
  [("signal", .text raw.name), ("event", .text raw.request.display)]

/-- The line of each event. Its level, message and fields are for people and for tools that read
logs. -/
def record : Event → Record
  | .coldStart => ⟨.debug, "No handoff descriptor present, cold start", []⟩
  | .descriptorIgnored e =>
    ⟨.warn, "Ignoring handoff descriptor, binding fresh", [("error", .text e.message)]⟩
  | .otherAddress requested inherited =>
    ⟨.warn, "Handoff descriptor is for a different address, binding fresh",
      [("requested", .text requested), ("inherited", .text inherited)]⟩
  | .imported address fd name =>
    ⟨.info, "Imported listener from parent process",
      [("address", .text address), ("fd", .number fd), ("name", .text name)]⟩
  | .created address name =>
    ⟨.info, "Created listener", [("address", .text address), ("name", .text name)]⟩
  | .launching program dir fd descriptor =>
    ⟨.debug, "Launching child process",
      [("exe", .text program.display), ("dir", .text dir.display), ("fd", .number fd),
        ("descriptor", .text descriptor)]⟩
  | .spawned pid address name =>
    ⟨.info, "Spawned child process with inherited listener",
      [("pid", .number pid), ("address", .text address), ("name", .text name)]⟩
  | .signalReceived s => ⟨.info, "Signal received", [("signal", .text s.display)]⟩
  | .alreadyTerminated s =>
    ⟨.debug, "Already terminated, ignoring signal", [("signal", .text s.display)]⟩
  | .forked pid retire =>
    ⟨.info, "Forked child process", [("pid", .number pid), ("retire", .flag retire)]⟩
  | .reloadFailed address error =>
    ⟨.error, "Reload failed, keeping current listener",
      [("address", .text address), ("error", .text error)]⟩
  | .nothingToHandOff address =>
    ⟨.warn, "No listener to hand off, reload ignored", [("address", .text address)]⟩
  | .closed reason name =>
    ⟨.info, "Closed listener", [("reason", .text reason.display), ("name", .text name)]⟩
  | .closeFailed reason name error =>
    ⟨.error, "Failed to close listener",
      [("reason", .text reason.display), ("name", .text name), ("error", .text error.message)]⟩
  | .alreadyReleased reason =>
    ⟨.debug, "Listener already released", [("reason", .text reason.display)]⟩
  | .waiting address => ⟨.info, "Waiting for signals", [("address", .text address)]⟩
  | .channelClosed => ⟨.warn, "Signal channel closed, shutting down", []⟩
  | .childExited pid status =>
    ⟨.info, "Child process exited", [("pid", .number pid), ("status", .text status.display)]⟩
  | .pollFailed pid error =>
    ⟨.warn, "Failed to poll child process",
      [("pid", .number pid), ("error", .text error.message)]⟩
  | .forwarded raw => ⟨.debug, "Signal forwarded", signalFields raw⟩
  | .coalesced raw => ⟨.debug, "Signal already pending, coalesced", signalFields raw⟩
  | .queueing raw => ⟨.debug, "Another signal pending, queueing behind it", signalFields raw⟩
  | .forwardingStopped => ⟨.debug, "Signal forwarding stopped", []⟩
  | .draining active timeout =>
    ⟨.debug, "Waiting for in-flight connections",
      [("active", .number active), ("timeout", .text timeout.display)]⟩
  | .drained => ⟨.info, "In-flight connections finished", []⟩
  | .gaveUp stillOpen =>
    ⟨.warn, "Gave up waiting for connections", [("still_open", .number stillOpen)]⟩
  | .accepting => ⟨.info, "Accepting connections", []⟩
  | .stoppedAccepting active =>
    ⟨.info, "Stopped accepting", [("active_connections", .number active)]⟩
  | .connectionAccepted peer => ⟨.debug, "Connection accepted", [("peer", .text peer)]⟩
  | .connectionClosed peer lines =>
    ⟨.debug, "Connection closed", [("peer", .text peer), ("lines", .number lines)]⟩
  | .connectionFailed peer error =>
    ⟨.debug, "Connection failed", [("peer", .text peer), ("error", .text error)]⟩
  | .bindAddress address => ⟨.info, s!"Bind address: {address}", []⟩
  | .drainTimeout timeout => ⟨.info, s!"Drain timeout: {timeout.seconds}s", []⟩

end Event

end Handoff
