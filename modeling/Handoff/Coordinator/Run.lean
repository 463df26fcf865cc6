import Handoff.Coordinator.Basic

/-!
# The control loop

The loop of a coordinator takes one wake-up after the other: a request from the channel, the closing
of the channel, which counts as a shutdown, or a tick of the clock, at which exited children are
forgotten. It ends with the first shutdown and leaves later requests unread.
-/

namespace Handoff

/-- What wakes the control loop up. -/
inductive Wake where
  /-- A request comes from the channel. -/
  | request (signal : Signal)
  /-- The channel is empty and its other end is gone. -/
  | closed
  | tick
  deriving DecidableEq, Repr

def Wake.request? : Wake → Option Signal
  | .request s => some s
  | _ => none

/-- How often children are looked at while the loop waits, in milliseconds. -/
def reapInterval : Nat := 1000

/-- The wake-ups of a loop whose channel holds some `requests` and that is watched for `timeout`
milliseconds: the requests come at once, then the end of a channel that is `closed`, or the ticks,
of which the first comes at once. -/
def Wake.schedule (requests : List Signal) (closed : Bool) (timeout : Nat) : List Wake :=
  requests.map .request ++
    if closed then [.closed] else List.replicate (timeout / reapInterval + 1) .tick

namespace Coordinator

variable {σ : Type}

/-- What the loop does when it is woken up: it handles a request, ends with the channel, or
reaps. -/
def wake (w : Surroundings σ) (c : Coordinator) (s : σ) : Wake → Step σ
  | .request signal => (c.reap w s).andThen fun c s => c.handle w s signal
  | .closed =>
    Step.andThen ⟨c, s, [.report .channelClosed]⟩ fun c s => c.handle w s .shutdown
  | .tick => c.reap w s

/-- The loop over wake-ups until it terminates, with the wake-ups that are left. -/
def loop (w : Surroundings σ) (c : Coordinator) (s : σ) : List Wake → Step σ × List Wake
  | [] => (⟨c, s, []⟩, [])
  | k :: ks =>
    match c.phase with
    | .terminated => (⟨c, s, []⟩, k :: ks)
    | .serving =>
      let t := c.wake w s k
      let (u, rest) := loop w t.coordinator t.state ks
      (⟨u.coordinator, u.state, t.actions ++ u.actions⟩, rest)

/-- The control loop: it reports that it waits, and goes through the wake-ups by `loop`. -/
def run (w : Surroundings σ) (c : Coordinator) (s : σ) (wakes : List Wake) :
    Step σ × List Wake :=
  let (t, rest) := c.loop w s wakes
  (⟨t.coordinator, t.state, .report (.waiting c.address) :: t.actions⟩, rest)

end Coordinator

end Handoff
