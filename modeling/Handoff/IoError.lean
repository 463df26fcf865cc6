/-!
# Errors of the operating system

What can go wrong with a call to the system, as causes; the wording is in `IoError.message`.
-/

namespace Handoff

/-- Why an argument is refused before or instead of a call to the system. -/
inductive InvalidInput where
  /-- A TCP address has no colon. -/
  | socketAddress
  /-- The port of a TCP address is no number of 16 bits. -/
  | portValue
  /-- The host of a TCP address holds a NUL. -/
  | hostWithNul
  /-- The host of a TCP address is known and has no address. -/
  | noAddress
  /-- A socket path has 108 bytes or more. -/
  | pathTooLong
  /-- A socket path holds a NUL. -/
  | pathWithNul
  /-- A program or an argument holds a NUL. -/
  | argumentWithNul
  /-- An inherited slot is no open socket. -/
  | notSocket
  /-- An inherited socket is not of stream type. -/
  | notStream
  /-- An inherited socket is not listening. -/
  | notListening
  /-- An inherited socket is of another family than the address. -/
  | otherFamily
  deriving DecidableEq, Repr

def InvalidInput.message : InvalidInput → String
  | .socketAddress => "invalid socket address"
  | .portValue => "invalid port value"
  | .hostWithNul => "file name contained an unexpected NUL byte"
  | .noAddress => "could not resolve to any addresses"
  | .pathTooLong => "path must be shorter than SUN_LEN"
  | .pathWithNul => "paths must not contain interior null bytes"
  | .argumentWithNul => "nul byte found in provided data"
  | .notSocket => "not an open socket"
  | .notStream => "not a stream socket"
  | .notListening => "socket is not listening"
  | .otherFamily => "socket family does not match the address"

/-- Why a call to the system failed. -/
inductive IoError where
  /-- The argument is refused. -/
  | invalidInput (reason : InvalidInput)
  | notFound
  /-- The arguments and variables of a program are too long. -/
  | argumentListTooLong
  /-- The fd is not open. -/
  | badDescriptor
  /-- The process has no such child. -/
  | noChild
  /-- The file may not be used in this way. -/
  | permissionDenied
  /-- The device does not exist. -/
  | noDevice
  | notADirectory
  /-- The call makes no sense for its argument. -/
  | invalidArgument
  /-- Nobody reads what is written. -/
  | brokenPipe
  /-- A name in the path, or the path itself, is too long. -/
  | nameTooLong
  /-- The address is taken. -/
  | addressInUse
  /-- The address is none of this machine. -/
  | addressNotAvailable
  /-- No route leads to the address. -/
  | networkUnreachable
  /-- The other side hung up before it had read everything. -/
  | connectionReset
  /-- Nobody listens at the address. -/
  | connectionRefused
  /-- The host has no address. -/
  | unknownHost
  /-- The thing asked for is not there. -/
  | entityNotFound
  /-- Datagram sockets accept no connections. -/
  | datagram
  deriving DecidableEq, Repr

/-- The text of an error; errors of the system end with their number. -/
def IoError.message : IoError → String
  | .invalidInput r => r.message
  | .notFound => "No such file or directory (os error 2)"
  | .argumentListTooLong => "Argument list too long (os error 7)"
  | .badDescriptor => "Bad file descriptor (os error 9)"
  | .noChild => "No child processes (os error 10)"
  | .permissionDenied => "Permission denied (os error 13)"
  | .noDevice => "No such device (os error 19)"
  | .notADirectory => "Not a directory (os error 20)"
  | .invalidArgument => "Invalid argument (os error 22)"
  | .brokenPipe => "Broken pipe (os error 32)"
  | .nameTooLong => "File name too long (os error 36)"
  | .addressInUse => "Address already in use (os error 98)"
  | .addressNotAvailable => "Cannot assign requested address (os error 99)"
  | .networkUnreachable => "Network is unreachable (os error 101)"
  | .connectionReset => "Connection reset by peer (os error 104)"
  | .connectionRefused => "Connection refused (os error 111)"
  | .unknownHost => "failed to lookup address information: Name or service not known"
  | .entityNotFound => "entity not found"
  | .datagram => "datagram sockets cannot be served by the echo server"

end Handoff
