import Handoff.IoError
import Handoff.System.Host
import Handoff.Text.OsText

/-!
# Sockets

A socket as the system keeps it, with its family, its type and its name.
-/

namespace Handoff

inductive Family where
  /-- Internet, version 4. -/
  | inet
  /-- Internet, version 6. -/
  | inet6
  | unix
  /-- Another one, by the `number` that the system has for it. -/
  | other (number : Nat)
  deriving DecidableEq, Repr

inductive SocketType where
  /-- A stream of bytes. -/
  | stream
  /-- Single datagrams. -/
  | datagram
  /-- A sequence of packets. -/
  | seqpacket
  /-- Another one, by the `number` that the system has for it. -/
  | other (number : Nat)
  deriving DecidableEq, Repr

/-- The name of a socket. -/
inductive Endpoint where
  /-- A `host` and a `port`. -/
  | inet (host : Host) (port : Nat)
  /-- A path, as it was bound. -/
  | path (text : OsText)
  /-- No name that could be shown. -/
  | unnamed
  deriving DecidableEq, Repr

structure Socket where
  family : Family
  type : SocketType
  /-- Whether it accepts connections. -/
  listening : Bool
  /-- Its name. -/
  endpoint : Endpoint
  /-- How many connections wait to be accepted. -/
  waiting : Nat := 0
  deriving DecidableEq, Repr

def Host.family : Host → Family
  | .v4 _ => .inet
  | .v6 _ _ => .inet6

def Endpoint.display : Endpoint → String
  | .inet h p => s!"{h.display}:{p}"
  | .path t => t.display
  | .unnamed => "(unnamed)"

/-- The longest path of a Unix socket, in bytes, and one more. -/
def pathLimit : Nat := 108

/-- Checks a `path` that a Unix socket is bound or connected to. -/
def checkSocketPath (path : String) : Except IoError Unit :=
  if path.toList.contains '\x00' then .error (.invalidInput .pathWithNul)
  else if pathLimit ≤ path.utf8ByteSize then .error (.invalidInput .pathTooLong)
  else .ok ()

end Handoff
