import Handoff.Acquire
import Handoff.Config
import Handoff.Coordinator.Run
import Handoff.Echo.Server
import Handoff.Spawn.Replacement

/-!
# The server program

A server process reads its settings, acquires its listener, serves it with a duplicate and obeys
the requests of the operator until it is shut down; then it waits for its connections.

* `System.startServer`: from the command line to the running server.
* `Instance.obey`: one request, with a relaunch of the program if that is asked for.
* `Instance.settle`: the accept loop returns once it was told to stop.
* `Instance.leave`: the end of a server that was shut down.
-/

namespace Handoff

/-- Why a server did not start. -/
inductive StartError where
  /-- The command line asks for something else. -/
  | stopped (stop : CommandLine.Stop)
  /-- There is no listener for the `address`. -/
  | acquire (address : String) (error : AcquireError)
  /-- The accept loop has no listener of its own. -/
  | acceptLoop (error : IoError)
  deriving DecidableEq, Repr

namespace StartError

/-- The lines of a text behind the first one stand under it, `margin` in front of each. -/
def indent (margin : String) (text : List Char) : List Char :=
  text.flatMap fun c => if c = '\n' then '\n' :: margin.toList else [c]

/-- The line of a cause; `mark` stands in front of it. -/
def entry (mark cause : String) : String :=
  let margin := "".pushn ' ' mark.length
  mark ++ String.ofList (indent margin cause.toList) ++ "\n"

/-- The text of a failure in `context` and its causes, outermost first. A single cause has no
number. -/
def report (context : String) (causes : List String) : String :=
  let entries : List String :=
    match causes with
    | [c] => [entry "    " c]
    | cs => cs.zipIdx.map fun p => entry s!"    {p.2}: " p.1
  s!"Error: {context}\n\nCaused by:\n" ++ String.join entries

def message : StartError → String
  | .stopped stop => stop.message
  | .acquire address e =>
    report s!"Failed to acquire listener for {address}" [e.message, e.source.message]
  | .acceptLoop e => report "Failed to prepare accept loop" [e.message]

def exitCode : StartError → Nat
  | .stopped stop => stop.exitCode
  | _ => 1

end StartError

/-- A server in its process. -/
structure Instance where
  config : Config
  /-- The owner of the listener. -/
  coordinator : Coordinator
  /-- The duplicate of the accept loop, until that returns. -/
  acceptor : Option Listener
  /-- The connections. -/
  echo : EchoServer
  deriving DecidableEq, Repr

namespace System

/-- What the coordinator of a process needs: launches and closings change the system, polls collect
a status. -/
def surroundings : Surroundings System where
  spawn s address l := s.spawnReplacement address l
  close s l := l.close s
  name s l := l.debugName s
  poll s c := c.poll s

/-- Starts to serve the listener `l`: the coordinator owns it, and the accept loop gets a
duplicate. -/
def serve (s : System) (config : Config) (l : Listener) :
    Outcome System StartError Instance :=
  match l.tryClone s with
  | .error e => ⟨.error (.acceptLoop e), l.drop s, []⟩
  | .ok (duplicate, s') =>
    match duplicate.acceptor with
    | .error e => ⟨.error (.acceptLoop e), l.drop (duplicate.drop s'), []⟩
    | .ok a =>
      let (echo, events) := EchoServer.start (EchoServer.labelOf s.self.pid)
      ⟨.ok ⟨config, .ofListener config.addr l, some a, echo⟩, s', events⟩

/-- Starts the server in its process: settings, then the listener, then `serve`. -/
def startServer (s : System) : Outcome System StartError Instance :=
  match CommandLine.parse s.self.args with
  | .error stop => ⟨.error (.stopped stop), s, []⟩
  | .ok line =>
    let config := (Config.ofEnvironment s.self.env).override line
    let o := s.acquire config.addr
    match o.result with
    | .error e => ⟨.error (.acquire config.addr e), o.state, config.events ++ o.events⟩
    | .ok l =>
      let o' := o.state.serve config l
      { o' with events := config.events ++ o.events ++ o'.events }

end System

namespace Instance

/-- Handles a `request` of the operator. -/
def obey (i : Instance) (s : System) (request : Signal) : Instance × System × List Event :=
  let t := i.coordinator.wake System.surroundings s (.request request)
  ({ i with coordinator := t.coordinator }, t.state, t.events)

/-- The accept loop returns if it was told to stop, and its duplicate is given up. -/
def settle (i : Instance) (s : System) : Instance × System × List Event :=
  match i.coordinator.stopped, i.acceptor with
  | true, some l =>
    let (echo, events) := i.echo.stop
    ({ i with acceptor := none, echo := echo }, l.drop s, events)
  | _, _ => (i, s, [])

/-- The wait for the connections of a server that was shut down, to which the `instants` happen in
the meantime. It is over when all connections are finished, or after the drain timeout. -/
def leave (i : Instance) (instants : List Instant) : Drain :=
  .run i.config.drainTimeout.millis i.echo.tracker instants

end Instance

end Handoff
