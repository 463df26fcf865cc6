import Handoff.Program

/-!
# Generations of servers

All server processes that descend from one start. A reload of one of them launches the next
generation, which starts by itself and inherits the listener.

* `Fleet.start`: the first generation.
* `Fleet.obey`: a request to one process.
* `Fleet.acceptors`: who may take a connection.
* `Fleet.exchange`: a line from a client and the answer to it.
* `Fleet.leave`: the end of a process.
-/

namespace Handoff

/-- The server processes and the system in which they run. -/
structure Fleet where
  system : System
  /-- The servers by process number, in the order of their start. -/
  members : List (Nat × Instance)

namespace Fleet

/-- The first generation. -/
def start (s : System) : Outcome System StartError Fleet :=
  let o := s.startServer
  match o.result with
  | .error e => ⟨.error e, o.state, o.events⟩
  | .ok i => ⟨.ok ⟨o.state, [(s.self.pid, i)]⟩, o.state, o.events⟩

def member? (f : Fleet) (pid : Nat) : Option Instance :=
  (f.members.find? (·.1 == pid)).map (·.2)

/-- The fleet in which the server of the process `pid` is `i`. -/
def withMember (f : Fleet) (pid : Nat) (i : Instance) : Fleet :=
  { f with members := f.members.map fun (p, j) => if p = pid then (p, i) else (p, j) }

/-- The process `pid`, which was launched, starts its server; if that fails, the process ends. -/
def boot (f : Fleet) (pid : Nat) : Fleet :=
  match f.system.focus pid with
  | none => f
  | some s =>
    let o := s.startServer
    match o.result with
    | .ok i => ⟨o.state, f.members ++ [(pid, i)]⟩
    | .error e =>
      let parent := (o.state.focus f.system.self.pid).getD o.state
      { f with system := parent.finish pid (.code e.exitCode) }

/-- The processes that were launched and have not started their servers. -/
def launched (f : Fleet) : List Nat :=
  (f.system.others.filter fun p => p.status.isNone && (f.member? p.pid).isNone).map (·.pid)

/-- The process `pid` handles a `request` and its accept loop notices it. -/
def handle (f : Fleet) (pid : Nat) (request : Signal) : Fleet :=
  match f.member? pid, f.system.focus pid with
  | some i, some s =>
    let (i, s, _) := i.obey s request
    let (i, s, _) := i.settle s
    { f with system := s }.withMember pid i
  | _, _ => f

/-- The process `pid` handles a `request`, and the processes that it launched start their
servers. -/
def obey (f : Fleet) (pid : Nat) (request : Signal) : Fleet :=
  let f := f.handle pid request
  f.launched.foldl boot f

/-- The processes whose accept loops may take a connection from `socket`. -/
def acceptors (f : Fleet) (socket : Nat) : List Nat :=
  f.members.filterMap fun (pid, i) =>
    match i.acceptor, f.system.focus pid with
    | some l, some s => if s.fds.file? l.fd = some (.socket socket) then some pid else none
    | _, _ => none

/-- A client connects to `address`: the processes that may take the connection. -/
def connect (f : Fleet) (address : String) : Except IoError (List Nat) :=
  (f.system.reach (.parse address)).map f.acceptors

/-- The process `pid` changes what it knows of its connections. -/
def modifyEcho (f : Fleet) (pid : Nat) (g : EchoServer → EchoServer) : Fleet :=
  match f.member? pid with
  | none => f
  | some i => f.withMember pid { i with echo := g i.echo }

/-- The process `pid` takes the connection `id`. -/
def take (f : Fleet) (pid id : Nat) (peer : String) : Fleet :=
  f.modifyEcho pid fun e => ((e.connect id peer).accept).1

/-- The client `id` sends `bytes` to the process that serves it; the bytes that come back. Nothing
can be sent to a process that does not serve the client any more. -/
def exchange (f : Fleet) (pid id : Nat) (bytes : List UInt8) :
    Except IoError (List UInt8 × Fleet) :=
  match f.member? pid with
  | none => .error .brokenPipe
  | some i =>
    if i.echo.connections.any (·.id == id) then
      let (echo, out, _) := (i.echo.arrive id bytes).serve id
      .ok (out, f.withMember pid { i with echo := echo })
    else .error .brokenPipe

def hangUp (f : Fleet) (pid id : Nat) (unread : Bool) : Fleet :=
  f.modifyEcho pid fun e => ((e.hangUp id unread).serve id).1

/-- The process `pid`, which was shut down, waits for its connections and ends; the wait is over at
the drain timeout if clients keep their connections. -/
def leave (f : Fleet) (pid : Nat) : Option Drain × Fleet :=
  ((f.member? pid).map (·.leave []), f.modifyEcho pid EchoServer.breakOff)

end Fleet

end Handoff
