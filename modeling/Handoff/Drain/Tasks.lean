import Handoff.Drain

/-!
# The single actions on a tracker

Connections are served and drains wait in tasks of their own, which share one tracker. What they do
to it are single actions, and the actions of different tasks come in any order. A connection that
ends lowers the count and, if it was the last one, wakes the drains that have registered; that is an
action of its own. A drain that sees a connection registers first and looks once more before it
sleeps, so that it is woken by a connection that ends in between.

* `Waiter.next?`: what a drain does next.
* `Tasks.perform?`: an action of one of the tasks.
* `Tasks.run?`: actions one after the other.
-/

namespace Handoff

/-- Where the task of a connection is. -/
inductive Guard where
  | live
  /-- It has ended as the last one, and has yet to wake the drains. -/
  | waking
  /-- It has ended, and nothing is left to do. -/
  | ended
  deriving DecidableEq, Repr

/-- Where the task of a drain is, between two of its actions. -/
inductive Waiter where
  | called
  /-- It is about to look at the count. -/
  | looking
  /-- It has seen a connection and is about to register. -/
  | registering
  /-- It has registered and is about to look again; it may have been woken since. -/
  | checking (woken : Bool)
  /-- It has seen a connection again and sleeps until it is woken. -/
  | sleeping (woken : Bool)
  /-- It has returned and told whether all connections finished. -/
  | returned (finished : Bool)
  deriving DecidableEq, Repr

namespace Waiter

/-- The drain once a connection wakes those that are `checking` or `sleeping`, which have
registered. -/
def wake : Waiter → Waiter
  | checking _ => checking true
  | sleeping _ => sleeping true
  | d => d

/-- The drain after its next action, with `active` connections. A drain that was woken starts over,
one that sleeps or has returned does nothing. -/
def next? (active : Nat) : Waiter → Option Waiter
  | called => some (if active = 0 then returned true else looking)
  | looking => some (if active = 0 then returned true else registering)
  | registering => some (checking false)
  | checking woken => some (if active = 0 then returned true else sleeping woken)
  | sleeping true => some looking
  | sleeping false => none
  | returned _ => none

/-- The drain after its timeout, which it notices when it is `sleeping`. -/
def expire? : Waiter → Option Waiter
  | sleeping _ => some (returned false)
  | _ => none

end Waiter

/-- The tasks that share a `tracker`. -/
structure Tasks where
  tracker : Tracker := {}
  /-- The connections, in the order in which they began. -/
  guards : List Guard := []
  /-- The drains, in the order in which they were called. -/
  drains : List Waiter := []
  deriving DecidableEq, Repr

namespace Tasks

/-- An action of a task, which no other task interrupts. -/
inductive Action where
  /-- A connection begins. -/
  | guard
  /-- The connection `k` ends. -/
  | release (k : Nat)
  /-- The connection `k`, which was the last one, wakes the drains. -/
  | wake (k : Nat)
  /-- A drain is called. -/
  | call
  /-- The drain `k` takes its next action. -/
  | proceed (k : Nat)
  /-- The timeout of the drain `k` passes. -/
  | expire (k : Nat)
  deriving DecidableEq, Repr

/-- The tasks after an action, if it is one that can be taken. -/
def perform? (t : Tasks) : Action → Option Tasks
  | .guard => some { t with tracker := t.tracker.guard, guards := t.guards ++ [.live] }
  | .release k =>
    if t.guards[k]? = some .live then
      let after := if t.tracker.active = 1 then Guard.waking else .ended
      some { t with tracker := t.tracker.release, guards := t.guards.set k after }
    else none
  | .wake k =>
    if t.guards[k]? = some .waking then
      some { t with guards := t.guards.set k .ended, drains := t.drains.map Waiter.wake }
    else none
  | .call => some { t with drains := t.drains ++ [.called] }
  | .proceed k =>
    (t.drains[k]?.bind (Waiter.next? t.tracker.active)).map fun d =>
      { t with drains := t.drains.set k d }
  | .expire k =>
    (t.drains[k]?.bind Waiter.expire?).map fun d => { t with drains := t.drains.set k d }

/-- The tasks after the `actions`, if each of them can be taken. -/
def run? (t : Tasks) (actions : List Action) : Option Tasks := actions.foldlM perform? t

end Tasks

end Handoff
