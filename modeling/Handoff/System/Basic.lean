import Handoff.Address
import Handoff.Fd.Table
import Handoff.System.Environment
import Handoff.System.Files
import Handoff.System.Network
import Handoff.System.Socket
import Handoff.System.Status

/-!
# The system as one process sees it

A `System` holds the sockets and files of a machine, its network and its processes: the one that
runs and all others. A socket lives while an fd of some process refers to it.

* `System.bind`, `System.connect`, `System.accept?`: the life of a listening socket.
* `System.focus`: the system as another process sees it.
-/

namespace Handoff

structure Process where
  pid : Nat
  /-- Its open fds; none once it has ended. -/
  fds : FdTable
  /-- Its variables. -/
  env : Environment
  /-- Its working directory. -/
  cwd : Place
  /-- The path of the program that it runs, unless the system cannot tell. -/
  program : Option OsText
  /-- The arguments behind the name of the program. -/
  args : List OsText
  /-- How it ended, if it has. -/
  status : Option ExitStatus := none
  deriving DecidableEq, Repr

/-- A machine, as the process `self` sees it. -/
structure System where
  /-- What it knows of hosts. -/
  network : Network
  /-- All sockets ever made, by number. -/
  sockets : List Socket
  files : FileTree
  /-- The least port that was never given out. -/
  nextPort : Nat
  /-- The least process number that was never given out. -/
  nextPid : Nat
  /-- The process that runs. -/
  self : Process
  /-- The other processes. -/
  others : List Process

namespace System

def firstPort : Nat := 40001

/-- A machine with a network, some files, one process and nothing else. -/
def ofProcess (network : Network) (files : FileTree) (p : Process) : System :=
  ⟨network, [], files, firstPort, p.pid + 1, p, []⟩

def fds (s : System) : FdTable := s.self.fds

def withFds (s : System) (t : FdTable) : System := { s with self := { s.self with fds := t } }

def withEnv (s : System) (e : Environment) : System := { s with self := { s.self with env := e } }

/-- Whether an fd of some process refers to the socket `id`. -/
def isLive (s : System) (id : Nat) : Bool :=
  (s.self :: s.others).any (·.fds.refersTo (.socket id))

/-- The socket to which `fd` of the running process refers. -/
def socketAt? (s : System) (fd : Int) : Option Socket :=
  match s.fds.file? fd with
  | some (.socket id) => s.sockets[id]?
  | _ => none

def endpointAt? (s : System) (fd : Int) : Option Endpoint := (s.socketAt? fd).map (·.endpoint)

/-- Makes the socket `sock` and opens it at the lowest free fd. -/
def openSocket (s : System) (sock : Socket) : Int × System :=
  let (fd, t) := s.fds.openFile (.socket s.sockets.length)
  (fd, { s with sockets := s.sockets ++ [sock] }.withFds t)

/-- Whether a live socket of the type is bound to `port` of a host that `overlaps` this one. -/
def portTaken (s : System) (type : SocketType) (host : Host) (port : Nat) : Bool :=
  s.sockets.zipIdx.any fun (sock, id) =>
    match sock.endpoint with
    | .inet h p => sock.type == type && h.overlaps host && p == port && s.isLive id
    | _ => false

/-- A port that no socket has: the least one from `nextPort` up that is not taken. -/
def freshPort (s : System) (type : SocketType) (host : Host) : Nat :=
  match (List.range (s.sockets.length + 1)).find? fun (n : Nat) =>
    !s.portTaken type host (s.nextPort + n) with
  | some n => s.nextPort + n
  | none => s.nextPort + (s.sockets.length + 1)

/-- Binds an internet socket to `host` and `port`; port zero stands for a fresh one. -/
def bindInet (s : System) (type : SocketType) (host : Host) (port : Nat) :
    Except IoError (Int × System) :=
  let sock (p : Nat) : Socket := ⟨host.family, type, type == .stream, .inet host p, 0⟩
  if port = 0 then
    let p := s.freshPort type host
    .ok ({ s with nextPort := p + 1 }.openSocket (sock p))
  else if s.portTaken type host port then .error .addressInUse
  else .ok (s.openSocket (sock port))

/-- Binds a listening socket to the address that `host` has on the network. -/
def bindHost (s : System) (port : Nat) (host : Host) : Except IoError (Int × System) :=
  match s.network.own host with
  | .error e => .error e
  | .ok own => s.bindInet .stream own port

/-- Binds a listening socket to a TCP address: to the first of its hosts to which that is
possible. -/
def bindTcp (s : System) (hostPort : String) : Except IoError (Int × System) :=
  match s.network.resolve hostPort with
  | .error e => .error e
  | .ok (hosts, port) => firstOk (s.bindHost port) (.invalidInput .noAddress) hosts

/-- Binds a Unix socket to `path`. The empty path gives a socket without a name, any other one a
file that stays when the socket is gone. -/
def bindPath (s : System) (type : SocketType) (path : String) : Except IoError (Int × System) :=
  match checkSocketPath path with
  | .error e => .error e
  | .ok () =>
    let listening := type != .datagram
    if path = "" then .ok (s.openSocket ⟨.unix, type, listening, .unnamed, 0⟩)
    else
      match s.files.vacancy s.self.cwd path with
      | .error e => .error e
      | .ok place =>
        let files := s.files.insert place (.socket s.sockets.length)
        .ok ({ s with files := files }.openSocket ⟨.unix, type, listening, .path path, 0⟩)

def bind (s : System) : Address → Except IoError (Int × System)
  | .tcp hostPort => s.bindTcp hostPort
  | .unix path => s.bindPath .stream path

/-- Whether `sock`, which is socket `id`, takes connections to a port of a host. -/
def takesFrom (s : System) (host : Host) (port : Nat) (sock : Socket) (id : Nat) : Bool :=
  match sock.endpoint with
  | .inet h p =>
    sock.type == .stream && sock.listening && h.overlaps host && p == port && s.isLive id
  | _ => false

/-- The socket that a connection to `port` of `host` reaches. -/
def reachHost (s : System) (port : Nat) (host : Host) : Except IoError Nat :=
  match s.network.route host with
  | .error e => .error e
  | .ok own =>
    match s.sockets.zipIdx.find? fun (sock, id) => s.takesFrom own port sock id with
    | some (_, id) => .ok id
    | none => .error .connectionRefused

/-- The socket that a connection to a TCP address reaches, at the first of its hosts where there is
one. -/
def reachTcp (s : System) (hostPort : String) : Except IoError Nat :=
  match s.network.resolve hostPort with
  | .error e => .error e
  | .ok (hosts, port) => firstOk (s.reachHost port) (.invalidInput .noAddress) hosts

/-- The socket that a connection to `path` reaches: a live listening one must stand behind the
file. -/
def reachPath (s : System) (path : String) : Except IoError Nat :=
  match checkSocketPath path with
  | .error e => .error e
  | .ok () =>
    if path = "" then .error .invalidArgument
    else
      match s.files.find s.self.cwd path with
      | .error e => .error e
      | .ok (.socket id) =>
        match s.sockets[id]? with
        | some sock =>
          if sock.listening && s.isLive id then .ok id else .error .connectionRefused
        | none => .error .connectionRefused
      | .ok _ => .error .connectionRefused

def reach (s : System) : Address → Except IoError Nat
  | .tcp hostPort => s.reachTcp hostPort
  | .unix path => s.reachPath path

/-- One more connection waits at socket `id`. -/
def enqueue (s : System) (id : Nat) : System :=
  { s with sockets := s.sockets.modify id fun k => { k with waiting := k.waiting + 1 } }

/-- Connects to `a` and hangs up. -/
def connect (s : System) (a : Address) : Except IoError System := (s.reach a).map s.enqueue

/-- Takes one waiting connection from the socket at `fd`, if there is one. -/
def accept? (s : System) (fd : Int) : Option System :=
  match s.fds.file? fd with
  | some (.socket id) =>
    match s.sockets[id]? with
    | some sock =>
      if sock.waiting = 0 then none
      else
        some { s with sockets := s.sockets.modify id fun k => { k with waiting := k.waiting - 1 } }
    | none => none
  | _ => none

def close (s : System) (fd : Int) : Except IoError System :=
  match s.fds.close fd with
  | .error e => .error e
  | .ok t => .ok (s.withFds t)

/-- Lets go of `fd`: closes it if it is open. -/
def drop (s : System) (fd : Int) : System := s.withFds (s.fds.erase fd)

/-- The system as the process `pid` sees it, if there is such a process. -/
def focus (s : System) (pid : Nat) : Option System :=
  if s.self.pid = pid then some s
  else
    match s.others.find? (·.pid == pid) with
    | none => none
    | some p => some { s with self := p, others := s.self :: s.others.filter (·.pid != pid) }

/-- The system in which the other process `pid` has changed by `f`. -/
def modifyOther (s : System) (pid : Nat) (f : Process → Process) : System :=
  { s with others := s.others.map fun p => if p.pid = pid then f p else p }

/-- The other process `pid` ends: its fds are closed and its status waits to be collected. -/
def finish (s : System) (pid : Nat) (status : ExitStatus) : System :=
  s.modifyOther pid fun p =>
    if p.status.isSome then p else { p with fds := .empty, status := some status }

/-- Collects the status of a child: `none` while it runs. -/
def collect (s : System) (pid : Nat) : Except IoError (Option ExitStatus × System) :=
  match s.others.find? (·.pid == pid) with
  | none => .error .noChild
  | some p =>
    match p.status with
    | none => .ok (none, s)
    | some st => .ok (some st, { s with others := s.others.filter (·.pid != pid) })

end System

end Handoff
