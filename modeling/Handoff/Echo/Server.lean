import Handoff.Drain
import Handoff.Echo.Lines
import Handoff.IoError

/-!
# The echo server

A server takes connections until it is told to stop, and echoes the lines of each. A connection
that was taken is served to its end, also after the stop, and counts as active as long as it is.

The server is a machine of small steps. Clients change what has arrived at a connection; a step of
the server takes a connection or works on what has arrived.

* `Connection.work`: what the server makes of what has arrived, and how the connection ends.
* `EchoServer.accept`, `EchoServer.serve`, `EchoServer.stop`: the steps of the server.
-/

namespace Handoff

/-- What the client of a connection may still do. -/
inductive ClientState where
  /-- It sends and reads. -/
  | sending
  /-- It has sent everything and reads. -/
  | reading
  /-- It hung up and reads no answer; `unread` tells whether it left answers unread. -/
  | gone (unread : Bool)
  deriving DecidableEq, Repr

/-- Why a connection failed. -/
inductive ConnectionError where
  /-- A line is ill formed. -/
  | illFormed (error : Utf8.Error)
  /-- The connection broke. -/
  | broken (error : IoError)
  deriving DecidableEq, Repr

def ConnectionError.message : ConnectionError → String
  | .illFormed e => e.message
  | .broken e => e.message

/-- A connection that is being served. -/
structure Connection where
  id : Nat
  /-- The name of the client. -/
  peer : String
  /-- The bytes that the server has not read. -/
  arrived : List UInt8 := []
  /-- What the client may still do. -/
  client : ClientState := .sending
  echo : Echo
  deriving DecidableEq, Repr

/-- How a connection ended. -/
inductive Ending where
  /-- It was served to its end, with so many lines. -/
  | closed (lines : Nat)
  | failed (error : ConnectionError)
  deriving DecidableEq, Repr

def Ending.event (peer : String) : Ending → Event
  | .closed lines => .connectionClosed peer lines
  | .failed e => .connectionFailed peer e.message

/-- What working on a connection brings about. -/
structure Work where
  /-- The echo afterwards. -/
  echo : Echo
  /-- What is written to the client. -/
  written : List UInt8
  /-- How the connection ended, if it did. -/
  ending : Option Ending
  deriving DecidableEq, Repr

namespace Connection

/-- Writes `answers`. Nothing can be written to a client that is `gone`. -/
def write (c : Connection) (answers : List UInt8) : Except IoError (List UInt8) :=
  match c.client, answers with
  | .gone _, _ :: _ => .error .brokenPipe
  | _, out => .ok out

/-- The end of the input of `c`, if nothing more will arrive. A client that left answers unread has
reset the connection instead. -/
def inputEnd? (c : Connection) : Option (Except IoError Unit) :=
  match c.client with
  | .sending => none
  | .gone true => some (.error .connectionReset)
  | _ => some (.ok ())

/-- Writes the answers to a part of the input. What went wrong with the lines themselves is noticed
behind the answers before it. -/
def conclude (c : Connection) (answered : Echo × List UInt8) : Work :=
  match c.write answered.2, answered.1.fault with
  | .error e, _ => ⟨answered.1, [], some (.failed (.broken e))⟩
  | .ok out, some e => ⟨answered.1, out, some (.failed (.illFormed e))⟩
  | .ok out, none => ⟨answered.1, out, none⟩

/-- Works on what has `arrived`: its lines are answered, and then its end is noticed if nothing more
will arrive. -/
def work (c : Connection) : Work :=
  let w := c.conclude (c.echo.feed c.arrived)
  match w.ending, c.inputEnd? with
  | some _, _ | none, none => w
  | none, some (.error e) => { w with ending := some (.failed (.broken e)) }
  | none, some (.ok ()) =>
    let last := c.conclude w.echo.finish
    ⟨last.echo, w.written ++ last.written, some (last.ending.getD (.closed last.echo.lines))⟩

end Connection

/-- The connections of a process: those that wait, and those that are served and counted. -/
structure EchoServer where
  /-- What stands in front of each answer. -/
  label : List UInt8
  /-- Whether it takes connections. -/
  accepting : Bool := true
  /-- The connections that wait to be taken: numbers and names. -/
  waiting : List (Nat × String) := []
  /-- The connections that are being served. -/
  connections : List Connection := []
  /-- The count of those. -/
  tracker : Tracker := {}
  deriving DecidableEq, Repr

namespace EchoServer

/-- What stands in front of each answer of the process `pid`: its number tells which generation
served. -/
def labelOf (pid : Nat) : List UInt8 := Utf8.encode s!"{pid}: "

def start (label : List UInt8) : EchoServer × List Event := ({ label := label }, [.accepting])

/-- A client connects as `id`, and waits to be taken. -/
def connect (s : EchoServer) (id : Nat) (peer : String) : EchoServer :=
  { s with waiting := s.waiting ++ [(id, peer)] }

/-- The server takes a connection that waits: it is counted and served from now on. -/
def accept (s : EchoServer) : EchoServer × List Event :=
  match s.accepting, s.waiting with
  | true, (id, peer) :: rest =>
    ({ s with
        waiting := rest
        connections := s.connections ++ [{ id := id, peer := peer, echo := { label := s.label } }]
        tracker := s.tracker.guard },
      [.connectionAccepted peer])
  | _, _ => (s, [])

/-- Changes the connection `id` by `f`. -/
def modify (s : EchoServer) (id : Nat) (f : Connection → Connection) : EchoServer :=
  { s with connections := s.connections.map fun c => if c.id = id then f c else c }

/-- The `bytes` arrive at the connection `id`. -/
def arrive (s : EchoServer) (id : Nat) (bytes : List UInt8) : EchoServer :=
  s.modify id fun c => { c with arrived := c.arrived ++ bytes }

/-- The client of the connection `id` has sent everything. -/
def halfClose (s : EchoServer) (id : Nat) : EchoServer :=
  s.modify id fun c => { c with client := .reading }

/-- The client of the connection `id` hangs up. What it sent still arrives. -/
def hangUp (s : EchoServer) (id : Nat) (unread : Bool) : EchoServer :=
  s.modify id fun c => { c with client := .gone unread }

/-- The connection `id` is finished and no longer counted. -/
def forget (s : EchoServer) (id : Nat) : EchoServer :=
  { s with
    connections := s.connections.filter (·.id != id)
    tracker := s.tracker.release }

/-- Works on what has arrived at the connection `id`; gives what is written to the client. -/
def serve (s : EchoServer) (id : Nat) : EchoServer × List UInt8 × List Event :=
  match s.connections.find? (·.id == id) with
  | none => (s, [], [])
  | some c =>
    let w := c.work
    match w.ending with
    | some e => (s.forget id, w.written, [e.event c.peer])
    | none => (s.modify id fun c => { c with arrived := [], echo := w.echo }, w.written, [])

/-- Works on what has arrived at the connections `ids`, one after the other; gives what is written,
by connection. -/
def serveEach (s : EchoServer) (ids : List Nat) :
    EchoServer × List (Nat × List UInt8) × List Event :=
  ids.foldl (fun (s, out, events) id =>
    let (s', o, es) := s.serve id
    (s', out ++ [(id, o)], events ++ es)) (s, [], [])

/-- The server is told to stop. Connections that wait are left alone. -/
def stop (s : EchoServer) : EchoServer × List Event :=
  if s.accepting then ({ s with accepting := false }, [.stoppedAccepting s.tracker.active])
  else (s, [])

/-- The process ends: its connections break off. -/
def breakOff (s : EchoServer) : EchoServer := { s with connections := [], tracker := {} }

end EchoServer

end Handoff
