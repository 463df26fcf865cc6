import Handoff.Proofs.Echo.Accounting
import Handoff.Proofs.Lineage.Steps
import Handoff.Proofs.Spawn.Inheritance

/-!
# A server at work, step by step

Between the start of a server and the end of its process the control loop, the accept loop, the work
on each connection, the clients and the other processes take steps in any order. A reload is no
single step here, and the accept loop may take one more connection after it was told to stop. The
accept loop does not wait between taking a connection, counting it and starting the work on it, so
that is one step, and the return of the accept loop comes before all of it or behind it.

* `Service`: a server in its process.
* `Service.Step`, `Service.Run`: the steps, with the marks of the connections.
* `Service.run_wake`, `Service.run_loop`, `Service.run_settle`: what the server program does is made
  of these steps.
* `Service.leave?`: the drain, which begins when the control loop and the accept loop are over.
* `Stage.Suits`, `Service.Run.suits`: a server serves its address at every moment.
* `Service.Run.self_eq`: all that a process changes of itself are its fds.
-/

namespace Handoff

def Stage.coordinator? : Stage → Option Coordinator
  | .serving c | .exported c _ _ _ | .tried c _ _ _ | .retiring c => some c
  | .launched | .failed _ => none

/-- A server in its process: the control loop is at `stage`, the accept loop has `acceptor`, and
`echo` are the connections. -/
structure Service where
  system : System
  config : Config
  /-- How far the control loop is. -/
  stage : Stage
  /-- The duplicate of the accept loop, until that returns. -/
  acceptor : Option Listener
  echo : EchoServer
  /-- How many clients have connected so far; the next one gets this number. -/
  clients : Nat

namespace Service

/-- The server `i` between two requests, in the system `s`. -/
def ofInstance (s : System) (clients : Nat) (i : Instance) : Service :=
  ⟨s, i.config, .serving i.coordinator, i.acceptor, i.echo, clients⟩

/-- And back: the server between two requests, with the coordinator `c`. -/
def toInstance (v : Service) (c : Coordinator) : Instance := ⟨v.config, c, v.acceptor, v.echo⟩

/-- The accept loop returns if `c` told it to stop. -/
def settle (v : Service) (c : Coordinator) : Service :=
  let t := (v.toInstance c).settle v.system
  { v with system := t.2.1, acceptor := t.1.acceptor, echo := t.1.echo }

/-- The drain to which `instants` happen. It begins when the control loop has ended and the accept
loop has returned, so before that there is none. -/
def leave? (v : Service) (instants : List Instant) : Option Drain :=
  match v.stage, v.acceptor with
  | .serving c, none =>
    if c.phase = .terminated then some ((v.toInstance c).leave instants) else none
  | _, _ => none

/-- `Step id v ms w`: the server `v` for the socket `id` takes a step to `w`, with the marks
`ms`. -/
inductive Step (id : Nat) : Service → List Mark → Service → Prop
  /-- The control loop takes a step, which may be one of a reload. -/
  | work {v : Service} {s : System} {st : Stage} : v.stage.Work v.system s st →
      Step id v [] { v with system := s, stage := st }
  /-- The control loop handles a shutdown. -/
  | shutdown {v : Service} {c : Coordinator} : v.stage = .serving c → c.phase = .serving →
      Step id v []
        { v with
          system := (c.handle System.surroundings v.system .shutdown).state
          stage := .serving (c.handle System.surroundings v.system .shutdown).coordinator }
  /-- The accept loop looks whether it was told to stop. -/
  | settle {v : Service} {c : Coordinator} : v.stage.coordinator? = some c →
      Step id v [] (v.settle c)
  /-- The accept loop takes a connection, also when it was told to stop at the same moment. -/
  | accept {v : Service} {l : Listener} : v.acceptor = some l →
      Step id v (v.echo.taken v.echo.accept.1) { v with echo := v.echo.accept.1 }
  /-- The work on a connection goes on. -/
  | serve {v : Service} (k : Nat) :
      Step id v (v.echo.finished (v.echo.serve k).1) { v with echo := (v.echo.serve k).1 }
  /-- A client connects and waits to be taken. -/
  | connect {v : Service} (peer : String) :
      Step id v [] { v with echo := v.echo.connect v.clients peer, clients := v.clients + 1 }
  /-- Another process that accepts from the socket takes connections, or clients give up. -/
  | elsewhere {v : Service} {waiting : List (Nat × String)} : waiting.Sublist v.echo.waiting →
      Step id v [] { v with echo := { v.echo with waiting := waiting } }
  | arrive {v : Service} (k : Nat) (bytes : List UInt8) :
      Step id v [] { v with echo := v.echo.arrive k bytes }
  /-- A client has sent everything. -/
  | halfClose {v : Service} (k : Nat) : Step id v [] { v with echo := v.echo.halfClose k }
  | hangUp {v : Service} (k : Nat) (unread : Bool) :
      Step id v [] { v with echo := v.echo.hangUp k unread }
  /-- The process opens an fd for something else, such as a connection. -/
  | opens {v : Service} {fd : Int} {e : FdEntry} : v.system.fds.get? fd = none →
      e.file ≠ .socket id →
      Step id v [] { v with system := v.system.withFds (v.system.fds.insert fd e) }
  /-- The process closes an fd of something else. -/
  | closes {v : Service} {fd : Int} : v.system.fds.file? fd ≠ some (.socket id) →
      Step id v [] { v with system := v.system.drop fd }
  /-- Everything but this process changes. -/
  | world {v : Service} {s : System} : s.self = v.system.self → Step id v [] { v with system := s }

/-- Any number of `Step`s, with all their marks in order. -/
inductive Run (id : Nat) (v : Service) : List Mark → Service → Prop
  | refl : Run id v [] v
  | tail {ms ns : List Mark} {w x : Service} : Run id v ms w → Step id w ns x →
      Run id v (ms ++ ns) x

variable {id : Nat} {u v w : Service} {ms ns : List Mark} {c : Coordinator} {s : System}
  {st : Stage}

theorem Step.run (h : Step id v ms w) : Run id v ms w := Run.tail .refl h

theorem Run.trans (huv : Run id u ms v) (hvw : Run id v ns w) : Run id u (ms ++ ns) w := by
  induction hvw with
  | refl => rwa [List.append_nil]
  | tail _ hs ih =>
    rw [← List.append_assoc]
    exact ih.tail hs

theorem Run.next (h : Run id u ms v) (hs : Step id v [] w) : Run id u ms w := by
  have := h.tail hs
  rwa [List.append_nil] at this

/-- The two outcomes of `settle`: nothing happens, or the accept loop returns. -/
theorem settle_cases (v : Service) (c : Coordinator) :
    v.settle c = v ∨ ∃ l, v.acceptor = some l ∧ c.stopped = true ∧
      v.settle c =
        { v with system := l.drop v.system, acceptor := none, echo := v.echo.stop.1 } := by
  obtain ⟨s, config, stage, acceptor, echo, clients⟩ := v
  unfold settle toInstance Instance.settle
  cases c.stopped with
  | false => exact .inl rfl
  | true =>
    cases acceptor with
    | none => exact .inl rfl
    | some l => exact .inr ⟨l, rfl, rfl, rfl⟩

/-! ## What the server program does -/

/-- A server that starts has a coordinator for `l`, a duplicate of `l` for the accept loop, and no
connections. -/
theorem of_serve {s s' : System} {config : Config} {l : Listener} {i : Instance}
    {events : List Event} (h : s.serve config l = ⟨.ok i, s', events⟩) :
    i.config = config ∧ i.coordinator = .ofListener config.addr l ∧
      i.echo = (EchoServer.start (EchoServer.labelOf s.self.pid)).1 ∧
      ∃ duplicate, l.tryClone s = .ok (duplicate, s') ∧ i.acceptor = some duplicate := by
  unfold System.serve at h
  cases hd : l.tryClone s with
  | error e => simp [hd] at h
  | ok x =>
    obtain ⟨duplicate, s₁⟩ := x
    simp only [hd, Listener.acceptor] at h
    cases hk : duplicate.kind.isStream with
    | false => simp [hk] at h
    | true =>
      simp only [hk, if_true, Outcome.mk.injEq, Except.ok.injEq] at h
      obtain ⟨rfl, rfl, -⟩ := h
      exact ⟨rfl, rfl, rfl, duplicate, rfl, rfl⟩

/-- What a process does by itself (`Works`), its server does. -/
theorem run_works (h : v.stage.Works v.system s st) :
    Run id v [] { v with system := s, stage := st } := by
  induction h with
  | single hw => exact (Step.work hw).run
  | tail _ hw ih => exact ih.next (.work hw)

/-- `handle` is made of steps: of those of a reload, or of `shutdown`. -/
theorem run_handle (hst : v.stage = .serving c) (request : Signal) :
    let t := c.handle System.surroundings v.system request
    Run id v [] { v with system := t.state, stage := .serving t.coordinator } := by
  intro t
  cases hp : c.phase with
  | terminated =>
    have ht : t = _ := Coordinator.handle_terminated _ _ _ hp request
    rw [ht, ← hst]
    exact .refl
  | serving =>
    by_cases hr : request = .shutdown
    · subst hr
      exact (Step.shutdown hst hp).run
    · have hw := Stage.works_handle v.system hp hr
      rw [← hst] at hw
      exact run_works hw

/-- **Wake-ups.** What the control loop does when it is woken up by `k` is made of steps. -/
theorem run_wake (hst : v.stage = .serving c) (k : Wake) :
    let t := c.wake System.surroundings v.system k
    Run id v [] { v with system := t.state, stage := .serving t.coordinator } := by
  intro t
  have hreap : Step id v [] { v with
      system := (c.reap System.surroundings v.system).state
      stage := .serving (c.reap System.surroundings v.system).coordinator } :=
    .work (by rw [hst]; exact .move .reap)
  cases k with
  | request request => exact Run.trans hreap.run (run_handle rfl request)
  | closed => exact run_handle hst .shutdown
  | tick => exact hreap.run

/-- So is all that it does until it ends. -/
theorem run_loop (hst : v.stage = .serving c) (ks : List Wake) :
    let t := (c.loop System.surroundings v.system ks).1
    Run id v [] { v with system := t.state, stage := .serving t.coordinator } := by
  induction ks generalizing v c with
  | nil =>
    show Run id v [] { v with stage := .serving c }
    rw [← hst]
    exact .refl
  | cons k ks ih =>
    unfold Coordinator.loop
    cases c.phase with
    | terminated =>
      show Run id v [] { v with stage := .serving c }
      rw [← hst]
      exact .refl
    | serving => exact Run.trans (run_wake hst k) (ih rfl)

/-- An `Instance` that obeys a request takes such steps. -/
theorem run_obey (i : Instance) (s : System) (clients : Nat) (request : Signal) :
    let t := i.obey s request
    Run id (ofInstance s clients i) [] (ofInstance t.2.1 clients t.1) :=
  run_wake rfl (.request request)

/-- And so does one that looks whether its accept loop is to return. -/
theorem run_settle (i : Instance) (s : System) (clients : Nat) :
    let t := i.settle s
    Run id (ofInstance s clients i) [] (ofInstance t.2.1 clients t.1) := by
  intro t
  have hstep : Step id (ofInstance s clients i) []
      ((ofInstance s clients i).settle i.coordinator) := .settle rfl
  have hsame : (ofInstance s clients i).settle i.coordinator = ofInstance t.2.1 clients t.1 := by
    have ht : t.1.config = i.config ∧ t.1.coordinator = i.coordinator := by
      unfold t Instance.settle
      split <;> exact ⟨rfl, rfl⟩
    unfold settle ofInstance toInstance
    rw [ht.1, ht.2]
  rw [← hsame]
  exact hstep.run

end Service

/-! ## What no step changes -/

/-- A shutdown ends the control loop and gives the listener up, if there is one. -/
theorem System.handle_shutdown_eq (v : System) {c : Coordinator} (hp : c.phase = .serving) :
    (c.handle surroundings v .shutdown).coordinator =
        { c with stopped := true, listener := none, phase := .terminated } ∧
      (c.handle surroundings v .shutdown).state =
        match c.listener with
        | none => v
        | some l => l.drop v := by
  rw [Coordinator.handle_shutdown _ _ _ hp]
  refine ⟨?_, state_release v c .shutdown⟩
  simp only [Coordinator.release_coordinator]

namespace Stage

variable {address : String} {v v' : System} {st st' : Stage}

/-- The stage of a process that serves `address`. In a reload there is a listener, and the
descriptor `d` that is exported is for `address`. -/
def Suits (address : String) : Stage → Prop
  | .serving c | .retiring c => c.address = address
  | .exported c _ d _ =>
    c.address = address ∧ c.listener.isSome = true ∧ ∃ name, d = .ofListener address name
  | .tried c _ _ _ => c.address = address ∧ c.listener.isSome = true
  | .launched | .failed _ => False

theorem Move.suits (h : st.Move v v' st') (hs : st.Suits address) : st'.Suits address := by
  cases h with
  | ignore hl hr =>
    rw [(Coordinator.handle_reload_of_none System.surroundings _ v hl hr).1]
    exact hs
  | reap => exact hs
  | @exportOk _ c l d handle retire hp hl hx =>
    obtain ⟨-, f, -, -, -, hd⟩ := Listener.exportAs_eq_ok.mp hx
    refine ⟨hs, by rw [hl]; rfl, l.debugName v', ?_⟩
    rw [hd, show c.address = address from hs]
  | exportFails hl hx => exact hs
  | launchFails he => exact ⟨hs.1, hs.2.1⟩
  | refused e => exact ⟨hs.1, hs.2.1⟩
  | abandon => exact hs.1
  | @record c retire handle child =>
    cases retire with
    | true => exact hs.1
    | false => exact hs.1
  | close =>
    show (Coordinator.release _ _ _ _).coordinator.address = address
    rw [Coordinator.release_coordinator]
    exact hs

theorem Work.suits (h : st.Work v v' st') (hs : st.Suits address) : st'.Suits address := by
  cases h with
  | move hm => exact hm.suits hs
  | launch _ => exact ⟨hs.1, hs.2.1⟩

/-- A `Move` changes nothing of the process but its fds. -/
theorem Move.self_eq (h : st.Move v v' st') : v'.self = { v.self with fds := v'.self.fds } := by
  cases h with
  | ignore hl hr => rw [(Coordinator.handle_reload_of_none System.surroundings _ v hl hr).2]
  | @reap c =>
    rw [show (c.reap System.surroundings v).state.self = v.self from (System.frame_pollAll v _).2]
  | exportOk retire hp hl hx =>
    obtain ⟨-, f, -, -, rfl, -⟩ := Listener.exportAs_eq_ok.mp hx
    rfl
  | exportFails hl hx => rw [Listener.exportAs_eq_error hx]
  | launchFails he => rw [System.spawnExported_error he]
  | refused e => rfl
  | abandon => rfl
  | record => rfl
  | @close c =>
    rw [System.state_release]
    cases c.listener with
    | none => rfl
    | some l => rfl

theorem Work.self_eq (h : st.Work v v' st') : v'.self = { v.self with fds := v'.self.fds } := by
  cases h with
  | move hm => exact hm.self_eq
  | launch ho =>
    obtain ⟨-, -, p, -, -, -, -, rfl⟩ := System.of_spawnExported ho
    rfl

end Stage

namespace Service

variable {address : String} {id : Nat} {v w : Service} {ms : List Mark}

theorem Step.suits (h : Step id v ms w) (hs : v.stage.Suits address) : w.stage.Suits address := by
  cases h with
  | work hw => exact hw.suits hs
  | @shutdown c hst hp =>
    rw [hst] at hs
    show (c.handle System.surroundings v.system .shutdown).coordinator.address = address
    rw [(System.handle_shutdown_eq v.system hp).1]
    exact hs
  | @settle c _ => rcases v.settle_cases c with hw | ⟨l, -, -, hw⟩ <;> rw [hw] <;> exact hs
  | _ => exact hs

/-- A server serves the same `address` at every moment. -/
theorem Run.suits (h : Run id v ms w) (hs : v.stage.Suits address) : w.stage.Suits address := by
  induction h with
  | refl => exact hs
  | tail _ hstep ih => exact hstep.suits ih

theorem Step.self_eq (h : Step id v ms w) :
    w.system.self = { v.system.self with fds := w.system.self.fds } ∧ w.config = v.config := by
  cases h with
  | work hw => exact ⟨hw.self_eq, rfl⟩
  | @shutdown c hst hp =>
    refine ⟨?_, rfl⟩
    show (c.handle System.surroundings v.system .shutdown).state.self = _
    rw [(System.handle_shutdown_eq v.system hp).2]
    cases c.listener with
    | none => rfl
    | some l => rfl
  | @settle c _ => rcases v.settle_cases c with hw | ⟨l, -, -, hw⟩ <;> rw [hw] <;> exact ⟨rfl, rfl⟩
  | world hself => exact ⟨by rw [hself], rfl⟩
  | _ => exact ⟨rfl, rfl⟩

/-- The process of a server keeps all but its fds, and the server keeps its `config`. -/
theorem Run.self_eq (h : Run id v ms w) :
    w.system.self = { v.system.self with fds := w.system.self.fds } ∧ w.config = v.config := by
  induction h with
  | refl => exact ⟨rfl, rfl⟩
  | tail _ hs ih =>
    obtain ⟨hself, hconfig⟩ := hs.self_eq
    refine ⟨?_, hconfig.trans ih.2⟩
    rw [hself, ih.1]

/-! ## A server on a small machine -/

/-- `System.servingUnix` has a Unix socket at fd 3 and begins to serve it. -/
def unixStart : Outcome System StartError Instance :=
  System.servingUnix.serve ⟨"/s", .ofSeconds 30⟩ ⟨.unix, 3⟩

/-- The server of that process. -/
def unixInstance : Instance :=
  ⟨⟨"/s", .ofSeconds 30⟩, .ofListener "/s" ⟨.unix, 3⟩, some ⟨.unix, 4⟩,
    (EchoServer.start (EchoServer.labelOf 1)).1⟩

theorem unixStart_eq : unixStart = ⟨.ok unixInstance, unixStart.state, unixStart.events⟩ := by
  rfl

end Service

end Handoff
