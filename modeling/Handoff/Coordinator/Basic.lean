import Handoff.Outcome
import Handoff.Spawn.Plan

/-!
# The coordinator

The coordinator owns the listener of a server. A reload launches a child first and, if it is to
retire this process, releases the listener once the child runs; a shutdown releases it at once. A
failed reload touches nothing.

Every transition is a `Step`: the coordinator and the world afterwards and the actions on the way in
their order. What is logged is a part of the actions, so that nothing happens silently.

* `Coordinator.handle`: one request of the operator.
* `Coordinator.reap`: forgets the children that have exited.
-/

namespace Handoff

/-- Where a coordinator is in its life: it never goes back to `serving`. -/
inductive Phase where
  /-- It takes requests; the listener may have been handed off already. -/
  | serving
  /-- A shutdown was handled. -/
  | terminated
  deriving DecidableEq, Repr

/-- What a coordinator needs of a world of type `σ`. -/
structure Surroundings (σ : Type) where
  /-- Launches a replacement for a listener that serves the address. -/
  spawn : σ → String → Listener → Outcome σ SpawnError Child
  /-- Gives a listener up. -/
  close : σ → Listener → Except IoError Unit × σ
  /-- The name of a listener. -/
  name : σ → Listener → String
  /-- Asks for the status of a child. -/
  poll : σ → Child → Except IoError (Option ExitStatus) × Child × σ

/-- A part of a transition, in the order in which the parts happen. -/
inductive Action where
  /-- An event is logged. -/
  | report (e : Event)
  /-- A launch is tried. -/
  | spawnTried (address : String)
  | spawnSucceeded (pid : Nat)
  | spawnFailed (error : SpawnError)
  | recorded (pid : Nat)
  /-- The accept loops are told to stop. -/
  | cancelled
  /-- The listener is given up. -/
  | released (l : Listener) (result : Except IoError Unit)
  /-- The `status` of a child is collected. -/
  | collected (pid : Nat) (status : ExitStatus)

def Action.event? : Action → Option Event
  | .report e => some e
  | _ => none

/-- The state of the coordinator of one listener. -/
structure Coordinator where
  address : String
  /-- The listener, until it is released. -/
  listener : Option Listener
  /-- The children that have not been collected, in the order of their launch. -/
  children : List Child
  /-- Where it is in its life. -/
  phase : Phase
  /-- Whether the accept loops were told to stop. -/
  stopped : Bool
  deriving DecidableEq, Repr

/-- A transition of a coordinator in a world of type `σ`. -/
structure Step (σ : Type) where
  /-- The coordinator afterwards. -/
  coordinator : Coordinator
  /-- The world afterwards. -/
  state : σ
  /-- What was done, in order. -/
  actions : List Action

namespace Step

variable {σ : Type}

def events (t : Step σ) : List Event := t.actions.filterMap Action.event?

/-- The transition `t`, continued by `f` where it ends. -/
def andThen (t : Step σ) (f : Coordinator → σ → Step σ) : Step σ :=
  let u := f t.coordinator t.state
  ⟨u.coordinator, u.state, t.actions ++ u.actions⟩

end Step

namespace Coordinator

variable {σ : Type}

/-- A coordinator that owns the listener `l`. -/
def ofListener (address : String) (l : Listener) : Coordinator :=
  ⟨address, some l, [], .serving, false⟩

/-- Stops accepting: the accept loops are told so, and the listener is given up for `reason`. -/
def release (w : Surroundings σ) (c : Coordinator) (s : σ) (reason : Reason) : Step σ :=
  match c.listener with
  | none =>
    ⟨{ c with stopped := true }, s, [.cancelled, .report (.alreadyReleased reason)]⟩
  | some l =>
    let name := w.name s l
    let (result, s') := w.close s l
    let told := match result with
      | .ok () => Event.closed reason name
      | .error e => .closeFailed reason name e
    ⟨{ c with stopped := true, listener := none }, s',
      [.cancelled, .released l result, .report told]⟩

/-- Launches a child for the listener; on success the child is recorded, and then the listener is
released if this process is to `retire`. -/
def reload (w : Surroundings σ) (c : Coordinator) (s : σ) (retire : Bool) : Step σ :=
  match c.listener with
  | none => ⟨c, s, [.report (.nothingToHandOff c.address)]⟩
  | some l =>
    let o := w.spawn s c.address l
    let tried := .spawnTried c.address :: o.events.map Action.report
    match o.result with
    | .error e =>
      ⟨c, o.state,
        tried ++ [.spawnFailed e, .report (.reloadFailed c.address e.message)]⟩
    | .ok child =>
      let launched : Step σ :=
        ⟨{ c with children := c.children ++ [child] }, o.state,
          tried ++ [.spawnSucceeded child.pid, .report (.forked child.pid retire),
            .recorded child.pid]⟩
      if retire then launched.andThen fun c s => c.release w s .retire else launched

/-- Handles a `request`. After the end all requests are ignored. -/
def handle (w : Surroundings σ) (c : Coordinator) (s : σ) (request : Signal) : Step σ :=
  match c.phase with
  | .terminated => ⟨c, s, [.report (.alreadyTerminated request)]⟩
  | .serving =>
    Step.andThen ⟨c, s, [.report (.signalReceived request)]⟩ fun c s =>
      match request with
      | .reloadRetire => c.reload w s true
      | .reloadCoexist => c.reload w s false
      | .shutdown =>
        (c.release w s .shutdown).andThen fun c s => ⟨{ c with phase := .terminated }, s, []⟩

/-- Asks children for their status: those that are kept, the world afterwards and the actions. -/
def pollAll (w : Surroundings σ) (s : σ) : List Child → List Child × σ × List Action
  | [] => ([], s, [])
  | c :: cs =>
    match w.poll s c with
    | (.ok (some status), c', s') =>
      let (kept, s'', actions) := pollAll w s' cs
      (kept, s'', .collected c'.pid status :: .report (.childExited c'.pid status) :: actions)
    | (.ok none, c', s') =>
      let (kept, s'', actions) := pollAll w s' cs
      (c' :: kept, s'', actions)
    | (.error e, c', s') =>
      let (kept, s'', actions) := pollAll w s' cs
      (c' :: kept, s'', .report (.pollFailed c'.pid e) :: actions)

/-- Forgets the children of which `pollAll` has collected the status. -/
def reap (w : Surroundings σ) (c : Coordinator) (s : σ) : Step σ :=
  let (kept, s', actions) := pollAll w s c.children
  ⟨{ c with children := kept }, s', actions⟩

end Coordinator

end Handoff
