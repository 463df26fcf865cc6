import Handoff.Event

/-!
# Draining connections

A tracker counts the connections that are being served. A drain waits until the count is zero, up
to a timeout. It looks at the count at the call and after each instant at which something happened,
so a count that reaches zero and rises again within one instant does not end it; and an instant at
the timeout or later comes too late.
-/

namespace Handoff

/-- Counts the connections that are being served. -/
structure Tracker where
  /-- How many there are. -/
  active : Nat := 0
  deriving DecidableEq, Repr

namespace Tracker

def guard (t : Tracker) : Tracker := ⟨t.active + 1⟩

def release (t : Tracker) : Tracker := ⟨t.active - 1⟩

end Tracker

/-- What happens to a tracker. -/
inductive Change where
  /-- A connection begins. -/
  | guard
  /-- A connection ends. -/
  | release
  deriving DecidableEq, Repr

def Change.apply (t : Tracker) : Change → Tracker
  | .guard => t.guard
  | .release => t.release

/-- Changes that happen together, with no look at the count in between. -/
structure Instant where
  /-- When they happen, in milliseconds after the call of the drain. -/
  time : Nat
  /-- The changes in order. -/
  changes : List Change
  deriving DecidableEq, Repr

def Instant.apply (t : Tracker) (i : Instant) : Tracker := i.changes.foldl Change.apply t

/-- What a drain reports. -/
structure Drain where
  /-- Whether all connections finished in time. -/
  finished : Bool
  /-- When the drain returned. -/
  elapsed : Nat
  /-- The tracker then. -/
  tracker : Tracker
  /-- What was logged. -/
  events : List Event
  deriving DecidableEq, Repr

namespace Drain

/-- The drain from the tracker `t` on which the instants are still to come, in ascending order. -/
def wait (timeout : Nat) (t : Tracker) : List Instant → Bool × Nat × Tracker
  | [] => (false, timeout, t)
  | i :: is =>
    if timeout ≤ i.time then (false, timeout, t)
    else
      let t' := i.apply t
      if t'.active = 0 then (true, i.time, t') else wait timeout t' is

/-- A drain of the tracker `t` to which the `instants` will happen, in ascending order. -/
def run (timeout : Nat) (t : Tracker) (instants : List Instant) : Drain :=
  if t.active = 0 then ⟨true, 0, t, []⟩
  else
    let (finished, elapsed, t') := wait timeout t instants
    let last := if finished then Event.drained else .gaveUp t'.active
    ⟨finished, elapsed, t', [.draining t.active ⟨timeout⟩, last]⟩

end Drain

end Handoff
