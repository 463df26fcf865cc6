import Handoff.Program
import Handoff.Proofs.Acquire
import Handoff.Proofs.Coordinator.Calls
import Handoff.Proofs.Export
import Handoff.Proofs.Spawn.Replacement
import Handoff.Proofs.System.Processes

/-!
# All processes that descend from one start

Several processes with coordinators for one address run at the same time, each at its own pace. A
reload is no single step here: between the export, the launch, the end of the duplicate and the
closing, other processes may do anything, and the child may run already.

* `Stage`: how far a process is.
* `Stage.Move`, `Stage.Work`: the steps of one process. A launch may fail at any time for any
  reason.
* `Stage.works_handle`: the steps of a request make up the transition of the coordinator.
* `Lineage`, `Lineage.Step`: the processes and the system in which they run, and their steps.
* `Lineage.reach_handle`, `Lineage.reach_wake`: a process that is left alone handles its request.
-/

namespace Handoff

/-- How far a process is: `launched` before it acquires, `serving` between requests, the three
stages in between while it handles a reload, and `failed` without a listener. -/
inductive Stage where
  /-- It was launched and has no listener yet. -/
  | launched
  /-- It waits for requests. -/
  | serving (c : Coordinator)
  /-- In a reload, the listener has been exported. -/
  | exported (c : Coordinator) (retire : Bool) (d : Descriptor) (handle : Int)
  /-- In a reload, the launch was tried. -/
  | tried (c : Coordinator) (retire : Bool) (handle : Int) (result : Except SpawnError Child)
  /-- In a reload, the child is recorded and the listener is about to be closed. -/
  | retiring (c : Coordinator)
  /-- It got no listener. -/
  | failed (e : AcquireError)

namespace Stage

/-- The stage after `acquire address` gave this result. -/
def ofAcquired (address : String) : Except AcquireError Listener → Stage
  | .ok l => .serving (.ofListener address l)
  | .error e => .failed e

/-- The stage after `child` was recorded; with `retire`, the listener is still to be closed. -/
def recorded (c : Coordinator) (retire : Bool) (child : Child) : Stage :=
  let c' := { c with children := c.children ++ [child] }
  if retire then .retiring c' else .serving c'

/-- The fds of a process that refer to its listener: that of `c.listener`, the `handle` of an
export, and the `listenerSlot` before the acquisition. -/
def handles : Stage → List Int
  | .launched => [listenerSlot]
  | .serving c | .retiring c => c.listener.toList.map Listener.fd
  | .exported c _ _ handle | .tried c _ handle _ => handle :: c.listener.toList.map Listener.fd
  | .failed _ => []

/-- A step from `v` and `st` to `v'` and `st'` of the process that runs in `v`, which starts no
other one. -/
inductive Move : System → Stage → System → Stage → Prop
  /-- Without a listener, a `request` is ignored. -/
  | ignore {v : System} {c : Coordinator} {request : Signal} : c.listener = none →
      request ≠ .shutdown →
      Move v (.serving c) (c.handle System.surroundings v request).state
        (.serving (c.handle System.surroundings v request).coordinator)
  | reap {v : System} {c : Coordinator} :
      Move v (.serving c) (c.reap System.surroundings v).state
        (.serving (c.reap System.surroundings v).coordinator)
  /-- A reload exports the listener. -/
  | exportOk {v v' : System} {c : Coordinator} {l : Listener} {d : Descriptor} {handle : Int}
      (retire : Bool) : c.phase = .serving → c.listener = some l →
      l.exportAs v c.address = (.ok (d, handle), v') →
      Move v (.serving c) v' (.exported c retire d handle)
  | exportFails {v v' : System} {c : Coordinator} {l : Listener} {e : ExportError} :
      c.listener = some l → l.exportAs v c.address = (.error e, v') →
      Move v (.serving c) v' (.serving c)
  | launchFails {v : System} {c : Coordinator} {retire : Bool} {d : Descriptor} {handle : Int}
      {e : SpawnError} : (v.spawnExported c.address d handle).result = .error e →
      Move v (.exported c retire d handle) (v.spawnExported c.address d handle).state
        (.tried c retire handle (.error e))
  /-- The launch is refused for another reason, and nothing happens. -/
  | refused {v : System} {c : Coordinator} {retire : Bool} {d : Descriptor} {handle : Int}
      (e : SpawnError) : Move v (.exported c retire d handle) v (.tried c retire handle (.error e))
  /-- After a failed launch, the duplicate is given up. -/
  | abandon {v : System} {c : Coordinator} {retire : Bool} {handle : Int} {e : SpawnError} :
      Move v (.tried c retire handle (.error e)) (v.drop handle) (.serving c)
  /-- After a launch, the duplicate is given up and the `child` is recorded. -/
  | record {v : System} {c : Coordinator} {retire : Bool} {handle : Int} {child : Child} :
      Move v (.tried c retire handle (.ok child)) (v.drop handle) (recorded c retire child)
  | close {v : System} {c : Coordinator} :
      Move v (.retiring c) (c.release System.surroundings v .retire).state
        (.serving (c.release System.surroundings v .retire).coordinator)

/-- A step of a process: a `Move`, or the launch of a child. -/
inductive Work : System → Stage → System → Stage → Prop
  /-- The process starts no other one. -/
  | move {v v' : System} {st st' : Stage} : st.Move v v' st' → Work v st v' st'
  /-- In a reload, the child is launched. -/
  | launch {v v' : System} {c : Coordinator} {retire : Bool} {d : Descriptor} {handle : Int}
      {child : Child} {events : List Event} :
      v.spawnExported c.address d handle = ⟨.ok child, v', events⟩ →
      Work v (.exported c retire d handle) v' (.tried c retire handle (.ok child))

/-- One `Work` or several of them, of a process that is left alone. -/
inductive Works (v : System) (st : Stage) : System → Stage → Prop
  | single {v' : System} {st' : Stage} : st.Work v v' st' → Works v st v' st'
  | tail {v' v'' : System} {st' st'' : Stage} : Works v st v' st' → st'.Work v' v'' st'' →
      Works v st v'' st''

end Stage

namespace System

variable {v : System} {address : String}

/-- Whether the process that runs would bind `address` to acquire a listener for it: its environment
holds no descriptor that is usable for `address`. -/
def wouldBind (v : System) (address : String) : Bool :=
  (usableDescriptor address (v.self.env.getText? listenerVariable)).1.isNone

/-- A process that `wouldBind` does what `bindFresh` does. -/
theorem acquire_of_wouldBind (h : v.wouldBind address = true) :
    (v.acquire address).result = (v.bindFresh address).result ∧
      (v.acquire address).state.sockets = (v.bindFresh address).state.sockets := by
  rw [result_acquire, sockets_acquire]
  unfold wouldBind at h
  unfold acquireFrom
  split
  · exact ⟨rfl, rfl⟩
  · rename_i hd
    rw [hd] at h
    cases h

/-- And one that would not bind `address` makes no socket. -/
theorem acquire_of_not_wouldBind (h : v.wouldBind address = false) :
    (v.acquire address).state.sockets = v.sockets := by
  rw [sockets_acquire]
  unfold wouldBind at h
  unfold acquireFrom
  split
  · rename_i hd
    rw [hd] at h
    cases h
  · split <;> rfl

end System

/-- The processes of a lineage, by number, and the system in which they run. -/
structure Lineage where
  system : System
  /-- How far the processes of the lineage are, by number. -/
  stage : Nat → Option Stage
  /-- How often one of them went to bind the address since the start. -/
  binds : Nat

namespace Lineage

/-- The process that runs in `s` has acquired `l`, and there is no other one. -/
def start (address : String) (s : System) (l : Listener) : Lineage :=
  ⟨s, fun pid => if pid = s.self.pid then some (.serving (.ofListener address l)) else none, 0⟩

/-- The process `pid` has come to the stage `st`, and `s` is the system as it sees it. -/
def put (f : Lineage) (pid : Nat) (st : Stage) (s : System) : Lineage :=
  { f with system := s, stage := fun q => if q = pid then some st else f.stage q }

@[simp] theorem put_system (f : Lineage) (pid : Nat) (st : Stage) (s : System) :
    (f.put pid st s).system = s := rfl

@[simp] theorem put_stage_self (f : Lineage) (pid : Nat) (st : Stage) (s : System) :
    (f.put pid st s).stage pid = some st := by simp [put]

theorem put_stage_of_ne (f : Lineage) {pid q : Nat} (st : Stage) (s : System) (h : q ≠ pid) :
    (f.put pid st s).stage q = f.stage q := by simp [put, h]

/-- A step of one of the processes, which `focus` brings into view, or of what surrounds them. -/
inductive Step (address : String) : Lineage → Lineage → Prop
  /-- A process takes a step by itself. -/
  | move {f : Lineage} {pid : Nat} {st st' : Stage} {v v' : System} : f.stage pid = some st →
      f.system.focus pid = some v → st.Move v v' st' → Step address f (f.put pid st' v')
  /-- A process launches another one, which belongs to the lineage from now on. -/
  | launch {f : Lineage} {pid : Nat} {c : Coordinator} {retire : Bool} {d : Descriptor}
      {handle : Int} {child : Child} {v v' : System} {events : List Event} :
      f.stage pid = some (.exported c retire d handle) → f.system.focus pid = some v →
      v.spawnExported c.address d handle = ⟨.ok child, v', events⟩ →
      Step address f
        ((f.put child.pid .launched v').put pid (.tried c retire handle (.ok child)) v')
  /-- A launched process acquires its listener. -/
  | acquire {f : Lineage} {pid : Nat} {v : System} : f.stage pid = some .launched →
      f.system.focus pid = some v →
      Step address f
        { f.put pid (.ofAcquired address (v.acquire address).result) (v.acquire address).state with
          binds := f.binds + if v.wouldBind address then 1 else 0 }
  | files {f : Lineage} (t : FileTree) :
      Step address f { f with system := { f.system with files := t } }
  /-- Connections arrive at sockets or are accepted. -/
  | traffic {f : Lineage} (id n : Nat) :
      Step address f
        { f with system := { f.system with
          sockets := f.system.sockets.modify id fun k => { k with waiting := n } } }

/-- Any number of a lineage's `Step`s. -/
inductive Reach (address : String) (f : Lineage) : Lineage → Prop
  | refl : Reach address f f
  | tail {g h : Lineage} : Reach address f g → Step address g h → Reach address f h

end Lineage

/-! ## What the surroundings of a coordinator do to the system -/

namespace System

variable {v v' : System} {c : Coordinator}

/-- `pollAll` changes neither a process that runs nor the one that polls. -/
theorem frame_pollAll (v : System) (cs : List Child) :
    Frame v (Coordinator.pollAll surroundings v cs).2.1 ∧
      (Coordinator.pollAll surroundings v cs).2.1.self = v.self := by
  induction cs generalizing v with
  | nil => exact ⟨.refl v, rfl⟩
  | cons child cs ih =>
    have hpoll : Frame v (child.poll v).2.2 ∧ (child.poll v).2.2.self = v.self := by
      unfold Child.poll
      split
      · exact ⟨.refl v, rfl⟩
      · split
        · exact ⟨.refl v, rfl⟩
        · split
          · exact ⟨.refl v, rfl⟩
          · rename_i hc
            exact frame_of_collect hc
    obtain ⟨hf, hs⟩ := ih (child.poll v).2.2
    have hstate : (Coordinator.pollAll surroundings v (child :: cs)).2.1 =
        (Coordinator.pollAll surroundings (child.poll v).2.2 cs).2.1 := by
      rcases hp : child.poll v with ⟨_ | _ | _, _, _⟩ <;>
        simp [Coordinator.pollAll, surroundings, hp]
    rw [hstate]
    exact ⟨hpoll.1.trans hf, hs.trans hpoll.2⟩

/-- A `release` drops the listener of `c`, if there is one. -/
theorem state_release (v : System) (c : Coordinator) (reason : Reason) :
    (c.release surroundings v reason).state =
      match c.listener with
      | none => v
      | some l => l.drop v := by
  unfold Coordinator.release
  cases c.listener with
  | none => rfl
  | some l => exact l.state_close v

/-- A `release` changes the fds of the running process at most. -/
theorem frame_release (v : System) (c : Coordinator) (reason : Reason) :
    Frame v (c.release surroundings v reason).state := by
  rw [state_release]
  cases c.listener with
  | none => exact .refl v
  | some l => exact frame_withFds v _

end System

/-- A `Move` leaves all other processes, the sockets and the numbers alone. -/
theorem Stage.Move.frame {st st' : Stage} {v v' : System} (h : st.Move v v' st') :
    v.Frame v' := by
  cases h with
  | ignore hl hr => rw [(Coordinator.handle_reload_of_none _ _ _ hl hr).2]; exact .refl v
  | reap => exact (System.frame_pollAll v _).1
  | exportOk _ _ _ hx =>
    obtain ⟨-, f, -, -, rfl, -⟩ := Listener.exportAs_eq_ok.mp hx
    exact System.frame_withFds v _
  | exportFails _ hx => rw [Listener.exportAs_eq_error hx]; exact .refl v
  | launchFails he => rw [System.spawnExported_error he]; exact .refl v
  | refused e => exact .refl v
  | abandon => exact System.frame_withFds v _
  | record => exact System.frame_withFds v _
  | close => exact System.frame_release v _ _

namespace Stage

/-! ## The steps of a request -/

variable {v v' : System} {c : Coordinator} {st st' : Stage}

/-- The process that takes a step stays `self`, the one that runs. -/
theorem Work.pid_eq (h : st.Work v v' st') : v'.self.pid = v.self.pid := by
  cases h with
  | move hm => exact hm.frame.pid_eq
  | launch ho =>
    obtain ⟨-, -, p, -, -, -, -, rfl⟩ := System.of_spawnExported ho
    rfl

theorem Works.move {v'' : System} {st'' : Stage} (h : Works v st v' st')
    (hm : st'.Move v' v'' st'') : Works v st v'' st'' :=
  h.tail (.move hm)

theorem Works.trans {v'' : System} {st'' : Stage} (h : Works v st v' st')
    (h' : Works v' st' v'' st'') : Works v st v'' st'' := by
  induction h' with
  | single hw => exact h.tail hw
  | tail _ hw ih => exact ih.tail hw

/-- From `exported` on: the launch, the end of the duplicate at `handle`, and the record of the
child if there is one. -/
theorem works_launch (v : System) (c : Coordinator) (retire : Bool) (d : Descriptor)
    (handle : Int) :
    let o := v.spawnExported c.address d handle
    Works v (.exported c retire d handle) (o.state.drop handle) (match o.result with
      | .error _ => .serving c
      | .ok child => recorded c retire child) := by
  intro o
  cases ho : o.result with
  | error e => exact (Works.single (.move (.launchFails ho))).move .abandon
  | ok child =>
    have ho' : o = ⟨.ok child, o.state, o.events⟩ := ho ▸ rfl
    exact (Works.single (.launch ho')).move .record

/-- **Requests.** A reload that `handle` does at once is made of `Work`s. -/
theorem works_handle {request : Signal} (v : System) (hp : c.phase = .serving)
    (hr : request ≠ .shutdown) :
    let t := c.handle System.surroundings v request
    Works v (.serving c) t.state (.serving t.coordinator) := by
  intro t
  -- A reload without a listener is one step. With one, the export fails, or it is followed by
  -- `works_launch`, and a reload that retires also closes.
  cases hl : c.listener with
  | none => exact .single (.move (.ignore hl hr))
  | some l =>
    have ht : t = _ := Coordinator.handle_reload _ _ _ hp hr
    rcases hx : l.exportAs v c.address with ⟨e | ⟨d, handle⟩, v₁⟩
    · have h : Works v (.serving c) v₁ (.serving c) := .single (.move (.exportFails hl hx))
      simpa [ht, Coordinator.reload, hl, System.surroundings, System.spawnReplacement, hx] using h
    · have h : Works v (.serving c) _ _ :=
        (Works.single (.move (.exportOk (decide (request = .reloadRetire)) hp hl hx))).trans
          (works_launch v₁ c _ d handle)
      cases ho : (v₁.spawnExported c.address d handle).result with
      | error e =>
        simp only [ho] at h
        simpa [ht, Coordinator.reload, hl, System.surroundings, System.spawnReplacement, hx, ho]
          using h
      | ok child =>
        simp only [ho] at h
        by_cases hret : request = .reloadRetire
        · simp only [recorded, hret, decide_true, if_true] at h
          simpa [ht, Coordinator.reload, hl, System.surroundings, System.spawnReplacement, hx, ho,
            hret, Step.andThen] using h.move .close
        · simp only [recorded, hret, decide_false] at h
          simpa [ht, Coordinator.reload, hl, System.surroundings, System.spawnReplacement, hx, ho,
            hret] using h

/-- The same for `wake`, which also looks after the children first. -/
theorem works_wake {request : Signal} (v : System) (hp : c.phase = .serving)
    (hr : request ≠ .shutdown) :
    let t := c.wake System.surroundings v (.request request)
    Works v (.serving c) t.state (.serving t.coordinator) := by
  have hphase : (c.reap System.surroundings v).coordinator.phase = .serving := hp
  exact (Works.single (.move .reap)).trans (works_handle _ hphase hr)

end Stage

namespace Lineage

variable {address : String} {f g : Lineage} {pid : Nat} {v v' : System} {c : Coordinator}
  {st st' : Stage}

/-- What the process `pid` can do by itself (`Works`), its lineage reaches with no step of another
process. -/
theorem reach_works (address : String) (hw : st.Works v v' st') (hst : f.stage pid = some st)
    (hv : f.system.focus pid = some v) :
    ∃ g, Reach address f g ∧ g.system = v' ∧ g.stage pid = some st' := by
  have hpid := (System.process?_of_focus hv).1
  have hone : ∀ {h : Lineage} {u u' : System} {su su' : Stage}, su.Work u u' su' →
      h.stage pid = some su → h.system.focus pid = some u →
      ∃ g, Step address h g ∧ g.system = u' ∧ g.stage pid = some su' := by
    intro h u u' su su' hwork hsu hu
    cases hwork with
    | move hm => exact ⟨_, .move hsu hu hm, rfl, put_stage_self ..⟩
    | launch ho => exact ⟨_, .launch hsu hu ho, rfl, put_stage_self ..⟩
  -- The induction over `hw` also needs that `v'` is a view of `pid`, or the next step could not be
  -- taken in the lineage.
  suffices h : (∃ g, Reach address f g ∧ g.system = v' ∧ g.stage pid = some st') ∧
      v'.self.pid = pid from h.1
  induction hw with
  | single hwork =>
    obtain ⟨g, hs, hsys, hstage⟩ := hone hwork hst hv
    exact ⟨⟨g, .tail .refl hs, hsys, hstage⟩, hwork.pid_eq.trans hpid⟩
  | tail _ hwork ih =>
    obtain ⟨⟨g, hg, rfl, hstage⟩, hself⟩ := ih
    obtain ⟨g', hs, hsys, hstage'⟩ := hone hwork hstage (hself ▸ System.focus_self _)
    exact ⟨⟨g', hg.tail hs, hsys, hstage'⟩, hwork.pid_eq.trans hself⟩

/-- **Requests.** What `handle` does at once, the lineage of `pid` can reach. -/
theorem reach_handle {request : Signal} (address : String)
    (hst : f.stage pid = some (.serving c)) (hv : f.system.focus pid = some v)
    (hp : c.phase = .serving) (hr : request ≠ .shutdown) :
    let t := c.handle System.surroundings v request
    ∃ g, Reach address f g ∧ g.system = t.state ∧
      g.stage pid = some (.serving t.coordinator) :=
  reach_works address (Stage.works_handle v hp hr) hst hv

/-- The same for `wake`. -/
theorem reach_wake {request : Signal} (address : String)
    (hst : f.stage pid = some (.serving c)) (hv : f.system.focus pid = some v)
    (hp : c.phase = .serving) (hr : request ≠ .shutdown) :
    let t := c.wake System.surroundings v (.request request)
    ∃ g, Reach address f g ∧ g.system = t.state ∧
      g.stage pid = some (.serving t.coordinator) :=
  reach_works address (Stage.works_wake v hp hr) hst hv

end Lineage

end Handoff
