import Handoff.Decimal.Unsigned
import Handoff.IoError
import Handoff.System.Host

/-!
# Networks

What a machine knows of hosts is its `Network`: the names that it can resolve, the addresses that
are its own, and those that a connection can be made to. Nothing else depends on the machine. A
call that is given several addresses tries them one after another (`firstOk`).

* `Network.resolve`: the addresses and the port of a text.
* `Network.isolated`: a machine by itself.
-/

namespace Handoff

/-- The first success of `f` on a list, or else its last failure, which is `e` for the empty one. -/
def firstOk {α β : Type} (f : α → Except IoError β) (e : IoError) : List α → Except IoError β
  | [] => .error e
  | x :: xs =>
    match f x with
    | .error e' => firstOk f e' xs
    | .ok y => .ok y

theorem exists_of_firstOk {α β : Type} {f : α → Except IoError β} {e : IoError} {xs : List α}
    {y : β} (h : firstOk f e xs = .ok y) : ∃ x ∈ xs, f x = .ok y := by
  induction xs generalizing e with
  | nil => cases h
  | cons x xs ih =>
    unfold firstOk at h
    split at h
    · obtain ⟨x', hmem, hx'⟩ := ih h
      exact ⟨x', .tail _ hmem, hx'⟩
    · rename_i hx
      exact ⟨x, .head _, hx.trans h⟩

/-- What a machine knows of hosts. -/
structure Network where
  /-- The addresses of the host that is called `name`, in the order in which they are tried. -/
  lookup (name : String) : Except IoError (List Host)
  /-- The address of a socket that is bound to `host`. -/
  own (host : Host) : Except IoError Host
  /-- The address of this machine at which a connection to `host` arrives. -/
  route (host : Host) : Except IoError Host

namespace Network

/-- The hosts and the port of a TCP address. The port stands behind the last colon and is read
first. A host that is no literal address is looked up by `n.lookup`. -/
def resolve (n : Network) (hostPort : String) : Except IoError (List Host × Nat) :=
  let backwards := hostPort.toList.reverse
  if !backwards.contains ':' then .error (.invalidInput .socketAddress)
  else
    let port := (backwards.takeWhile (· ≠ ':')).reverse
    let host := ((backwards.dropWhile (· ≠ ':')).drop 1).reverse
    match Decimal.read UInt16.size port with
    | .error _ => .error (.invalidInput .portValue)
    | .ok p =>
      if host.contains '\x00' then .error (.invalidInput .hostWithNul)
      else
        match Host.ofText? host (port.all Char.isDigit) with
        | some h => .ok ([h], p)
        | none =>
          match n.lookup (String.ofList host) with
          | .error e => .error e
          | .ok hs => .ok (hs, p)

def loopbackDevice : UInt32 := 1

/-- A machine with no network interface but a loopback device without an address: any address of
version 4 can be bound, also in its form of version 6, of version 6 itself only the one that stands
for all, and no connection can be made. The one name that it knows is its own. -/
def isolated : Network where
  lookup name := if name = "localhost" then .ok [.loopback] else .error .unknownHost
  own
    | .v4 n => .ok (.v4 n)
    | .v6 groups device =>
      if (Host.mapped? groups).isSome || (Host.v6 groups 0).isAny then .ok (.v6 groups 0)
      else if Host.isMulticast groups then .error .invalidArgument
      else if Host.isLinkLocal groups then
        if device = 0 then .error .invalidArgument
        else if device = loopbackDevice then .error .addressNotAvailable
        else .error .noDevice
      else .error .addressNotAvailable
  route
    | .v4 _ => .error .networkUnreachable
    | .v6 groups device =>
      if (Host.mapped? groups).isSome || Host.isMulticast groups then .error .networkUnreachable
      else if Host.isLinkLocal groups && device = 0 then .error .invalidArgument
      else .error .addressNotAvailable

end Network

end Handoff
