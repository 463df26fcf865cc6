import Handoff.System.Basic

/-!
# Listeners

A socket that this process owns by its fd. `Listener.bind` makes one, `Listener.tryClone` makes a
second handle on the same socket, and a handle is given up by `Listener.close`, which reports how
the closing went, or by `Listener.drop`, which does not.
-/

namespace Handoff

inductive ListenerKind where
  /-- Streams over TCP. -/
  | tcp
  /-- Streams over a Unix socket. -/
  | unix
  /-- Datagrams, which have no queue of connections. -/
  | udp
  deriving DecidableEq, Repr

namespace ListenerKind

def display : ListenerKind → String
  | .tcp => "tcp"
  | .unix => "unix"
  | .udp => "udp"

/-- Whether listeners of this kind accept streams; only those can be handed to a child. -/
def isStream : ListenerKind → Bool
  | .tcp => true
  | .unix => true
  | .udp => false

/-- Whether a socket of the family can be of this kind. -/
def suits : ListenerKind → Family → Bool
  | .tcp, .inet | .tcp, .inet6 => true
  | .udp, .inet | .udp, .inet6 => true
  | .unix, .unix => true
  | .tcp, .unix | .tcp, .other _ => false
  | .udp, .unix | .udp, .other _ => false
  | .unix, .inet | .unix, .inet6 | .unix, .other _ => false

def ofAddress : Address → ListenerKind
  | .tcp _ => .tcp
  | .unix _ => .unix

end ListenerKind

/-- A handle of this process on a socket. Others may have handles on the same one. -/
structure Listener where
  /-- The kind that the owner takes it for. -/
  kind : ListenerKind
  fd : Int
  deriving DecidableEq, Repr

namespace Listener

/-- Binds a fresh listener to `a`. -/
def bind (s : System) (a : Address) : Except IoError (Listener × System) :=
  match s.bind a with
  | .error e => .error e
  | .ok (fd, s') => .ok (⟨.ofAddress a, fd⟩, s')

/-- The local name of the socket, or a question mark if the `fd` refers to no socket of the
`kind`. -/
def localName (l : Listener) (s : System) : String :=
  match s.socketAt? l.fd with
  | some sock => if l.kind.suits sock.family then sock.endpoint.display else "?"
  | none => "?"

def debugName (l : Listener) (s : System) : String := s!"{l.kind.display}:{l.localName s}"

def streamFd? (l : Listener) : Option Int := if l.kind.isStream then some l.fd else none

/-- The least fd of a second handle: the standard streams are left alone. -/
def cloneFloor : Int := 3

/-- A second handle on the same socket. -/
def tryClone (l : Listener) (s : System) : Except IoError (Listener × System) :=
  match s.fds.dupAbove l.fd cloneFloor with
  | .error e => .error e
  | .ok (fd, t) => .ok (⟨l.kind, fd⟩, s.withFds t)

/-- The listener as an accept loop uses it; datagrams have no connections to accept. -/
def acceptor (l : Listener) : Except IoError Listener :=
  if l.kind.isStream then .ok l else .error .datagram

/-- Gives the handle up and tells how the closing went. Other handles on the socket stay. -/
def close (l : Listener) (s : System) : Except IoError Unit × System :=
  match s.close l.fd with
  | .error e => (.error e, s)
  | .ok s' => (.ok (), s')

def drop (l : Listener) (s : System) : System := s.drop l.fd

end Listener

end Handoff
