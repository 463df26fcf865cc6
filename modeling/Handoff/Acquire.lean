import Handoff.Listener
import Handoff.Outcome

/-!
# Acquiring a listener

A process gets its listener from its parent, by a descriptor in the environment, or binds the
address itself. A descriptor that is absent, malformed or made for another address is ignored. One
that matches but whose slot cannot be used is an error: binding again would hide a broken handoff
behind a second socket.

* `System.usability`: what is wrong with a slot, checked without touching it.
* `System.acquireFrom`: the listener for an address and a given descriptor text.
* `System.acquire`: the same with the descriptor in the environment, which is used up.
-/

namespace Handoff

/-- Why no listener was acquired. -/
inductive AcquireError where
  /-- The inherited `slot` cannot be used for `address`. -/
  | inherit (address : String) (slot : Int) (source : IoError)
  /-- The `address` cannot be bound. -/
  | bind (address : String) (source : IoError)
  deriving DecidableEq, Repr

def AcquireError.source : AcquireError → IoError
  | .inherit _ _ e => e
  | .bind _ e => e

def AcquireError.message : AcquireError → String
  | .inherit address slot e =>
    s!"inherited listener for {address} at fd {slot} is unusable: {e.message}"
  | .bind address e => s!"failed to bind {address}: {e.message}"

/-- The descriptor in `metadata`, if it can be read and was made for `address`, and why not. -/
def usableDescriptor (address : String) (metadata : Option String) :
    Option Descriptor × List Event :=
  match metadata with
  | none => (none, [.coldStart])
  | some text =>
    match Descriptor.decode text with
    | .error e => (none, [.descriptorIgnored e])
    | .ok d =>
      if d.Matches address then (some d, []) else (none, [.otherAddress address d.address])

namespace System

/-- Checks that `slot` holds a listening stream socket of a family that suits `a`. -/
def usability (s : System) (a : Address) (slot : Int) : Except InvalidInput Unit :=
  match s.socketAt? slot with
  | none => .error .notSocket
  | some sock =>
    if sock.type ≠ .stream then .error .notStream
    else if !sock.listening then .error .notListening
    else if !(ListenerKind.ofAddress a).suits sock.family then .error .otherFamily
    else .ok ()

/-- Takes over the slot that `d` names. A slot that cannot be used is left as it is. -/
def inherit (s : System) (a : Address) (d : Descriptor) : Except AcquireError Listener :=
  match s.usability a d.slot with
  | .error e => .error (.inherit d.address d.slot (.invalidInput e))
  | .ok () => .ok ⟨.ofAddress a, d.slot⟩

/-- Binds `address`, since there is nothing to inherit. -/
def bindFresh (s : System) (address : String) : Outcome System AcquireError Listener :=
  match Listener.bind s (.parse address) with
  | .error e => ⟨.error (.bind address e), s, []⟩
  | .ok (l, s') => ⟨.ok l, s', [.created address (l.debugName s')]⟩

/-- Acquires a listener for `address`, given the text of a descriptor in `metadata`: it is inherited
if the text is usable, and bound otherwise. -/
def acquireFrom (s : System) (address : String) (metadata : Option String) :
    Outcome System AcquireError Listener :=
  match usableDescriptor address metadata with
  | (none, events) =>
    let o := s.bindFresh address
    { o with events := events ++ o.events }
  | (some d, events) =>
    match s.inherit (.parse address) d with
    | .error e => ⟨.error e, s, events⟩
    | .ok l => ⟨.ok l, s, events ++ [.imported address d.slot d.debugName]⟩

/-- Acquires a listener for `address` with the descriptor in the environment. On success the
`listenerVariable` is removed if it held a readable text. -/
def acquire (s : System) (address : String) : Outcome System AcquireError Listener :=
  let metadata := s.self.env.getText? listenerVariable
  let o := s.acquireFrom address metadata
  match o.result, metadata with
  | .ok _, some _ =>
    { o with state := o.state.withEnv (o.state.self.env.unset listenerVariable) }
  | _, _ => o

end System

end Handoff
