import Handoff.Json.Text

/-!
# Handoff descriptors

A descriptor tells a child which listening socket it inherits: the address the socket was bound
for, which is the key by which the child recognises it, the fd slot it occupies and a name for
diagnostics. It travels as one line of JSON in an environment variable.
-/

namespace Handoff

/-- The environment variable that carries the descriptor. -/
def listenerVariable : String := "LISTENER"

/-- The fd slot of an inherited listener, right behind the standard streams. -/
def listenerSlot : Int := 3

/-- A listening socket passed from a parent to a child. -/
structure Descriptor where
  /-- The address the listener was bound for. -/
  address : String
  /-- The fd slot of the listener in the child. -/
  slot : Int
  /-- The name of the socket, for diagnostics only. -/
  debugName : String
  deriving DecidableEq, Repr

namespace Descriptor

/-- The descriptor of a listener for `address` in the `listenerSlot`. -/
def ofListener (address debugName : String) : Descriptor := ⟨address, listenerSlot, debugName⟩

/-- Whether `d` was made for `address`: the texts are equal, not only the places. -/
def Matches (d : Descriptor) (address : String) : Prop := d.address = address

instance (d : Descriptor) (address : String) : Decidable (d.Matches address) :=
  inferInstanceAs (Decidable (d.address = address))

def writeInt (n : Int) : List Char :=
  if n < 0 then '-' :: Nat.toDigits 10 n.natAbs else Nat.toDigits 10 n.natAbs

/-- The characters of `d`: a compact object with its three fields in a fixed order. -/
def write (d : Descriptor) : List Char :=
  '\x7b' :: Json.writeText "addr".toList ++ ':' :: Json.writeText d.address.toList ++
    ',' :: Json.writeText "fd".toList ++ ':' :: writeInt d.slot ++
    ',' :: Json.writeText "filename".toList ++ ':' :: Json.writeText d.debugName.toList ++ ['\x7d']

/-- The text of `d`. -/
def encode (d : Descriptor) : String := String.ofList d.write

end Descriptor

end Handoff
