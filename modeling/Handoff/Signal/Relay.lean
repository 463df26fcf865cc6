import Handoff.Event

/-!
# The signal relay

Signals of the operating system reach the control loop through a queue of capacity one. A signal
only sets a pending flag of its kind; a forwarder takes the flags one by one and puts the requests
into the queue. A request that is in the queue already is dropped, any other one waits until the
queue has room, so a shutdown is never lost behind a reload.

The relay is a machine of small steps: `raise`, `receive`, `dropReceiver` from outside and
`forward?` of the forwarder.
-/

namespace Handoff

/-- Which signals are pending, one flag for each kind. -/
structure Pending where
  hup : Bool := false
  usr2 : Bool := false
  int : Bool := false
  quit : Bool := false
  deriving DecidableEq, Repr

namespace Pending

def has (p : Pending) : OsSignal → Bool
  | .hup => p.hup
  | .usr2 => p.usr2
  | .int => p.int
  | .quit => p.quit

def set (p : Pending) (b : Bool) : OsSignal → Pending
  | .hup => { p with hup := b }
  | .usr2 => { p with usr2 := b }
  | .int => { p with int := b }
  | .quit => { p with quit := b }

/-- A pending signal, in the order in which the forwarder looks. -/
def first? (p : Pending) : Option OsSignal :=
  [OsSignal.hup, .usr2, .int, .quit].find? p.has

end Pending

/-- The state of the relay: the flags of the system, the forwarder, and its queue to the
receiver. -/
structure Relay where
  /-- The flags. -/
  pending : Pending := {}
  /-- The signal that waits for room, if the forwarder holds one. -/
  held : Option OsSignal := none
  /-- The request put into the queue last. -/
  last : Option Signal := none
  /-- The queue of capacity one. -/
  queue : Option Signal := none
  /-- Whether the receiver is there. -/
  receiving : Bool := true
  /-- Whether the forwarder runs. -/
  running : Bool := true
  deriving DecidableEq, Repr

namespace Relay

def raise (r : Relay) (s : OsSignal) : Relay := { r with pending := r.pending.set true s }

def receive (r : Relay) : Option Signal × Relay := (r.queue, { r with queue := none })

/-- The receiver goes away, and the queue with it. -/
def dropReceiver (r : Relay) : Relay := { r with receiving := false, queue := none }

def stop (r : Relay) : Relay × List Event :=
  ({ r with running := false, held := none }, [.forwardingStopped])

/-- The forwarder sends `s`, which it has taken: it is put into the `queue`, dropped because the
queue holds the same request, or held until there is room. The request put in `last` is the one in
the queue whenever the queue is full. -/
def send (r : Relay) (s : OsSignal) : Relay × List Event :=
  if !r.receiving then r.stop
  else if r.queue.isNone then
    ({ r with queue := some s.request, last := some s.request }, [.forwarded s])
  else if r.last = some s.request then (r, [.coalesced s])
  else ({ r with held := some s }, [.queueing s])

/-- One step of the forwarder with the pending signal `s`. -/
def take (r : Relay) (s : OsSignal) : Relay × List Event :=
  { r with pending := r.pending.set false s }.send s

/-- One step of the forwarder while it holds `s`: it ends with the receiver, or puts `s` into the
queue once there is room. -/
def release? (r : Relay) (s : OsSignal) : Option (Relay × List Event) :=
  if !r.receiving then some r.stop
  else if r.queue.isNone then
    some ({ r with queue := some s.request, last := some s.request, held := none }, [])
  else none

/-- One step of the forwarder, if it can take one. -/
def forward? (r : Relay) : Option (Relay × List Event) :=
  if !r.running then none
  else
    match r.held with
    | some s => r.release? s
    | none => r.pending.first?.map r.take

/-- At most `n` steps of the forwarder, until it can take none. -/
def settleIn (n : Nat) (r : Relay) : Relay × List Event :=
  match n with
  | 0 => (r, [])
  | n + 1 =>
    match r.forward? with
    | none => (r, [])
    | some (r', es) =>
      let (r'', es') := settleIn n r'
      (r'', es ++ es')

/-- The steps of the forwarder until it can take none. Each step but the first clears a flag, holds
a signal or ends the forwarder, so six are enough. -/
def settle (r : Relay) : Relay × List Event := r.settleIn 6

end Relay

end Handoff
