import Handoff.Proofs.Lineage.Steps
import Handoff.Proofs.Spawn.Inheritance
import Handoff.Proofs.System.Bind

/-!
# One socket for all generations

All processes that descend from one start share the socket that the first of them made, and at any
moment one of them has it open.

* `Stage.Fits`: every fd that a process has for its listener refers to the socket.
* `Stage.Keeps`: a process will have its listener after the reload that it is in, if it is in one.
* `Lineage.OneSocket`: all processes fit and one of them keeps. That one keeps, not only that one
  has the socket open, carries the invariant over the closing of a listener: the child was there
  before.
* `Lineage.OneSocket.step`: every step preserves it.
* `Lineage.OneSocket.reach_wake`: and no process is stuck.
* `Lineage.no_unbound_window`: what that means from a cold start on.
-/

namespace Handoff

/-- `c` serves `address` with the socket `id`, in the process `p`. -/
structure Coordinator.Serves (address : String) (id : Nat) (p : Process) (c : Coordinator) :
    Prop where
  address_eq : c.address = address
  phase_eq : c.phase = .serving
  /-- The listener is of the kind of the address and refers to the socket. -/
  listener_eq : ∀ l, c.listener = some l →
    l.kind = .ofAddress (.parse address) ∧ p.fds.file? l.fd = some (.socket id)

/-- `c` serves, and `handle` is a duplicate of its listener. -/
structure Coordinator.Duplicates (address : String) (id : Nat) (p : Process) (c : Coordinator)
    (handle : Int) : Prop extends c.Serves address id p where
  handle_eq : p.fds.file? handle = some (.socket id)
  fd_ne : ∀ l, c.listener = some l → l.fd ≠ handle

namespace Stage

/-- What the fds of `p` refer to at each stage: all of `handles` refer to the socket `id`, and the
descriptor of an export is the one for `address`. -/
def Fits (address : String) (id : Nat) (p : Process) : Stage → Prop
  | .launched => ∃ name, p.Inherits id address name
  | .serving c | .retiring c => c.Serves address id p
  | .exported c _ d handle =>
    c.Duplicates address id p handle ∧ ∃ name, d = .ofListener address name
  | .tried c _ handle _ => c.Duplicates address id p handle
  | .failed _ => False

/-- The process has its listener, or is to get it, and is not about to close it. In `tried`, a
launch that succeeded with `retire` does not keep, as the next step closes. -/
def Keeps : Stage → Prop
  | .launched => True
  | .serving c | .exported c _ _ _ => c.listener.isSome
  | .tried c retire _ result => c.listener.isSome ∧ (retire = false ∨ result.toBool = false)
  | .retiring _ | .failed _ => False

variable {address : String} {id : Nat} {p : Process} {st : Stage}

/-- All `handles` of a process that `Fits` refer to the socket. -/
theorem Fits.file?_eq (h : st.Fits address id p) :
    ∀ fd ∈ st.handles, p.fds.file? fd = some (.socket id) := by
  have hserves : ∀ c : Coordinator, c.Serves address id p →
      ∀ fd ∈ c.listener.toList.map Listener.fd, p.fds.file? fd = some (.socket id) := by
    intro c hc fd hfd
    obtain ⟨l, hl, rfl⟩ := List.mem_map.mp hfd
    exact (hc.listener_eq l (Option.mem_toList.mp hl)).2
  intro fd hfd
  -- A coordinator that `Serves` has the socket at its listener, so of each stage only the fds
  -- besides are left.
  cases st with
  | launched =>
    obtain ⟨name, hin⟩ := h
    cases List.mem_singleton.mp hfd
    exact hin.slot
  | serving c => exact hserves c h fd hfd
  | retiring c => exact hserves c h fd hfd
  | exported c _ d handle =>
    rcases List.mem_cons.mp hfd with rfl | hfd
    · exact h.1.handle_eq
    · exact hserves c h.1.toServes fd hfd
  | tried c _ handle _ =>
    rcases List.mem_cons.mp hfd with rfl | hfd
    · exact h.handle_eq
    · exact hserves c h.toServes fd hfd
  | failed e => exact h.elim

/-- A process that `Keeps` has an fd for its listener. -/
theorem Keeps.exists_handle (h : st.Keeps) : ∃ fd, fd ∈ st.handles := by
  cases st with
  | launched => exact ⟨listenerSlot, List.mem_singleton.mpr rfl⟩
  | serving c =>
    obtain ⟨l, hl⟩ := Option.isSome_iff_exists.mp h
    exact ⟨l.fd, by simp [handles, hl]⟩
  | exported c _ d handle => exact ⟨handle, List.mem_cons_self⟩
  | tried c _ handle _ => exact ⟨handle, List.mem_cons_self⟩
  | retiring c => exact h.elim
  | failed e => exact h.elim

/-! ## Steps of one process -/

variable {c : Coordinator} {v v' : System} {st' : Stage} {handle : Int}

/-- `Serves` depends on the address, the phase and the listener only. -/
theorem serves_of_eq (c' : Coordinator) (h : c.Serves address id p)
    (ha : c'.address = c.address) (hp : c'.phase = c.phase) (hl : c'.listener = c.listener) :
    c'.Serves address id p :=
  ⟨ha.trans h.address_eq, hp.trans h.phase_eq, fun l h' => h.listener_eq l (hl ▸ h')⟩

/-- The listener survives the end of the duplicate at `handle`. -/
theorem serves_drop (h : c.Duplicates address id v.self handle) :
    c.Serves address id (v.drop handle).self := by
  refine ⟨h.address_eq, h.phase_eq, fun l hl => ⟨(h.listener_eq l hl).1, ?_⟩⟩
  exact (FdTable.file?_erase_of_ne _ (h.fd_ne l hl)).trans (h.listener_eq l hl).2

theorem fits_recorded {retire : Bool} {child : Child} (h : c.Serves address id p) :
    (recorded c retire child).Fits address id p := by
  have hc := serves_of_eq { c with children := c.children ++ [child] } h rfl rfl rfl
  cases retire with
  | true => exact hc
  | false => exact hc

/-- An export gives a duplicate of `l` and the descriptor for `address`. -/
theorem duplicates_of_exportAs {l : Listener} {d : Descriptor} (h : c.Serves address id v.self)
    (hl : c.listener = some l) (hx : l.exportAs v c.address = (.ok (d, handle), v')) :
    c.Duplicates address id v'.self handle ∧ ∃ name, d = .ofListener address name := by
  obtain ⟨hkind, hopen⟩ := h.listener_eq l hl
  obtain ⟨hfile, hhandle⟩ := System.file?_of_exportAs hopen hx
  obtain ⟨-, f, -, hfree, -, hd⟩ := Listener.exportAs_eq_ok.mp hx
  refine ⟨⟨⟨h.address_eq, h.phase_eq, ?_⟩, hhandle, ?_⟩, _, h.address_eq ▸ hd⟩
  · intro l' hl'
    rw [hl] at hl'
    cases hl'
    exact ⟨hkind, hfile⟩
  · intro l' hl'
    rw [hl] at hl'
    cases hl'
    rw [hfree]
    exact FdTable.ne_lowestFree hopen _

/-- A process that `Fits` still does after a `Move`. -/
theorem Move.fits (h : st.Move v v' st') (hf : st.Fits address id v.self) :
    st'.Fits address id v'.self := by
  cases h with
  | ignore hl hr =>
    obtain ⟨hc, hs⟩ := Coordinator.handle_reload_of_none System.surroundings _ v hl hr
    rw [hc, hs]
    exact hf
  | @reap c =>
    rw [show (c.reap System.surroundings v).state.self = v.self from (System.frame_pollAll v _).2]
    have hc : c.Serves address id v.self := hf
    exact serves_of_eq _ hc rfl rfl rfl
  | exportOk retire hp hl hx => exact duplicates_of_exportAs hf hl hx
  | exportFails hl hx =>
    rw [Listener.exportAs_eq_error hx]
    exact hf
  | launchFails he =>
    rw [System.spawnExported_error he]
    exact hf.1
  | refused e => exact hf.1
  | abandon => exact serves_drop hf
  | record => exact fits_recorded (serves_drop hf)
  | close =>
    show Coordinator.Serves address id _ (Coordinator.release _ _ _ _).coordinator
    rw [Coordinator.release_coordinator]
    exact ⟨hf.address_eq, hf.phase_eq, fun l hl => by cases hl⟩

/-- A process that `Keeps` its listener still does after a `Move`. It can stop to keep only by a
launch with `retire`, which is no `Move`. -/
theorem Move.keeps (h : st.Move v v' st') (hk : st.Keeps) : st'.Keeps := by
  cases h with
  | ignore hl hr =>
    rw [(Coordinator.handle_reload_of_none System.surroundings _ v hl hr).1]
    exact hk
  | reap => exact hk
  | exportOk retire hp hl hx => exact hk
  | exportFails hl hx => exact hk
  | launchFails he => exact ⟨hk, .inr rfl⟩
  | refused e => exact ⟨hk, .inr rfl⟩
  | abandon => exact hk.1
  -- Who is to retire after this launch does not keep any more, so this is the other kind of reload.
  | record =>
    obtain ⟨hl, rfl | hr⟩ := hk
    · exact hl
    · cases hr
  | close => exact hk.elim

end Stage

/-! ## Acquisitions -/

/-- A process that `Inherits` the socket takes it over at the `listenerSlot`, and would not bind
`address`. -/
theorem System.acquire_inherited {v : System} {address name : String} {id : Nat}
    (hin : v.self.Inherits id address name) (hl : v.ListensFor id (.parse address)) :
    (v.acquire address).result = .ok ⟨.ofAddress (.parse address), listenerSlot⟩ ∧
      (v.acquire address).state = v.withEnv (v.self.env.unset listenerVariable) ∧
      v.wouldBind address = false := by
  have ha := acquireFrom_inherited hin.slot hl name
  refine ⟨?_, ?_, ?_⟩
  · simp [acquire, hin.descriptor, ha]
  · simp [acquire, hin.descriptor, ha]
  · have hd := Descriptor.decode_encode_ofListener address name
    have hm : (Descriptor.ofListener address name).address = address := rfl
    rw [wouldBind, hin.descriptor, usableDescriptor_matching hd hm]
    rfl

namespace Lineage

/-- All processes of `f` share the socket `id`, the last of `count`, and one of them keeps it. -/
structure OneSocket (address : String) (id count : Nat) (f : Lineage) : Prop where
  fresh : f.system.Fresh
  /-- The socket can be handed off for the address. -/
  listensFor : f.system.ListensFor id (.parse address)
  /-- No other socket was made. -/
  length_eq : f.system.sockets.length = count
  /-- Every process of the lineage runs and fits its stage. -/
  fits : ∀ pid st, f.stage pid = some st →
    ∃ p, f.system.process? pid = some p ∧ p.status = none ∧ st.Fits address id p
  /-- One of them has its listener, or is to get it, and is not about to close it. -/
  keeps : ∃ pid st, f.stage pid = some st ∧ st.Keeps
  /-- None went to bind the address. -/
  binds_eq : f.binds = 0

variable {address : String} {id count pid : Nat} {f g : Lineage} {v v' : System} {st st' : Stage}

/-- What is known of `pid` once it is brought into view as `v`. -/
theorem OneSocket.of_focus (h : f.OneSocket address id count) (hst : f.stage pid = some st)
    (hv : f.system.focus pid = some v) :
    v.self.pid = pid ∧ v.self.status = none ∧ st.Fits address id v.self ∧
      v.ListensFor id (.parse address) := by
  obtain ⟨hpid, hproc, hsock, -, -⟩ := System.process?_of_focus hv
  obtain ⟨p, hp, hs, hf⟩ := h.fits pid st hst
  have hself : v.process? pid = some v.self := hpid ▸ System.process?_self v
  rw [hproc, hp] at hself
  cases hself
  exact ⟨hpid, hs, hf, h.listensFor.congr hsock⟩

/-- `pid` may take a step to `st'` that changes only itself (`hframe`), if it fits `st'` and keeps
whenever it did before. -/
theorem OneSocket.put (h : f.OneSocket address id count) (hst : f.stage pid = some st)
    (hv : f.system.focus pid = some v) (hframe : v.Frame v')
    (hfits : st'.Fits address id v'.self) (hkeeps : st.Keeps → st'.Keeps) :
    (f.put pid st' v').OneSocket address id count := by
  obtain ⟨hpid, hrun, -, hl⟩ := h.of_focus hst hv
  obtain ⟨-, hproc, hsock, -, -⟩ := System.process?_of_focus hv
  refine ⟨hframe.fresh (h.fresh.focus hv), hl.congr hframe.sockets_eq, ?_, ?_, ?_, h.binds_eq⟩
  · rw [put_system, hframe.sockets_eq, hsock]
    exact h.length_eq
  -- Every process fits: `pid` by `hfits`, and any other is the same in `v'` as before.
  · intro q su hq
    by_cases hqp : q = pid
    · subst hqp
      rw [put_stage_self] at hq
      cases hq
      refine ⟨v'.self, ?_, hframe.status_eq.trans hrun, hfits⟩
      rw [put_system, ← hpid, ← hframe.pid_eq]
      exact System.process?_self v'
    · rw [put_stage_of_ne f _ _ hqp] at hq
      obtain ⟨p, hp, hs, hf⟩ := h.fits q su hq
      refine ⟨p, hframe.process?_eq q p (hpid ▸ hqp) ?_ hs, hs, hf⟩
      rw [hproc]
      exact hp
  · obtain ⟨q, su, hq, hk⟩ := h.keeps
    by_cases hqp : q = pid
    · subst hqp
      rw [hst] at hq
      cases hq
      exact ⟨q, st', put_stage_self .., hkeeps hk⟩
    · exact ⟨q, su, (put_stage_of_ne f _ _ hqp).trans hq, hk⟩

/-- A launch by the process `pid` brings in one more process, which inherits the socket and keeps
it. -/
theorem OneSocket.launch (h : f.OneSocket address id count) {c : Coordinator} {retire : Bool}
    {d : Descriptor} {handle : Int} {child : Child} {events : List Event}
    (hst : f.stage pid = some (.exported c retire d handle)) (hv : f.system.focus pid = some v)
    (ho : v.spawnExported c.address d handle = ⟨.ok child, v', events⟩) :
    ((f.put child.pid .launched v').put pid (.tried c retire handle (.ok child)) v').OneSocket
      address id count := by
  obtain ⟨hpid, hrun, hfits, hl⟩ := h.of_focus hst hv
  obtain ⟨-, hproc, hsock, -, -⟩ := System.process?_of_focus hv
  obtain ⟨program, plan, p, -, hplan, hp, hchild, rfl⟩ := System.of_spawnExported ho
  obtain ⟨t, -, -, -, -, hppid, hstatus⟩ := SpawnPlan.of_child hp
  have hfresh := h.fresh.focus hv
  have hself : v.process? pid = some v.self := hpid ▸ System.process?_self v
  have hne : pid ≠ child.pid := hchild ▸ hfresh.ne_nextPid hself
  refine ⟨hfresh.add hppid, hl, ?_, ?_, ?_, h.binds_eq⟩
  · show v.sockets.length = count
    rw [hsock]
    exact h.length_eq
  -- Every process fits: `pid` and the others as before, and `child.pid` by what `installHandles`
  -- and the new environment have given it.
  · intro q su hq
    by_cases hqp : q = pid
    · subst hqp
      rw [put_stage_self] at hq
      cases hq
      refine ⟨v.self, ?_, hrun, hfits.1⟩
      exact (System.process?_add_of_ne hppid (hchild ▸ hne)).trans hself
    · rw [put_stage_of_ne _ _ _ hqp] at hq
      by_cases hqc : q = child.pid
      · subst hqc
        rw [put_stage_self] at hq
        cases hq
        obtain ⟨hdup, name, rfl⟩ := hfits
        refine ⟨p, ?_, hstatus, name, System.inherits_of_launch hdup.handle_eq hplan hp⟩
        rw [put_system, hchild]
        exact System.process?_add_self hfresh hppid
      · rw [put_stage_of_ne f _ _ hqc] at hq
        obtain ⟨p', hp', hs, hf⟩ := h.fits q su hq
        refine ⟨p', ?_, hs, hf⟩
        exact (System.process?_add_of_ne hppid (hchild ▸ hqc)).trans ((hproc q).trans hp')
  -- The child keeps the socket from now on, whatever becomes of its parent.
  · refine ⟨child.pid, .launched, ?_, trivial⟩
    rw [put_stage_of_ne _ _ _ hne.symm, put_stage_self]

/-- A number `n` of connections that wait does not change what a socket is. -/
theorem listensFor_modify {s : System} {a : Address} (h : s.ListensFor id a) (k n : Nat) :
    System.ListensFor
      { s with sockets := s.sockets.modify k fun sock => { sock with waiting := n } } id a := by
  obtain ⟨sock, hs, ht, hlis, hf⟩ := h
  by_cases hk : k = id
  · subst hk
    exact ⟨{ sock with waiting := n }, by simp [hs], ht, hlis, hf⟩
  · exact ⟨sock, by simp [hs, hk], ht, hlis, hf⟩

/-- **Step.** Every `Step` of the lineage preserves `OneSocket`. -/
theorem OneSocket.step (h : f.OneSocket address id count) (hs : Step address f g) :
    g.OneSocket address id count := by
  cases hs with
  | move hst hv hm =>
    obtain ⟨-, -, hfits, -⟩ := h.of_focus hst hv
    exact h.put hst hv hm.frame (hm.fits hfits) hm.keeps
  | launch hst hv ho => exact h.launch hst hv ho
  | @acquire pid v hst hv =>
    obtain ⟨-, -, ⟨name, hin⟩, hl⟩ := h.of_focus hst hv
    obtain ⟨hok, hstate, hbind⟩ := System.acquire_inherited hin hl
    rw [hok, hstate, hbind]
    refine h.put hst hv (System.frame_withEnv v _) ⟨rfl, rfl, ?_⟩ fun _ => rfl
    intro l hl'
    cases hl'
    exact ⟨rfl, hin.slot⟩
  | files t => exact ⟨h.fresh, h.listensFor, h.length_eq, h.fits, h.keeps, h.binds_eq⟩
  | traffic k n =>
    refine ⟨h.fresh, listensFor_modify h.listensFor k n, ?_, h.fits, h.keeps, h.binds_eq⟩
    exact (List.length_modify ..).trans h.length_eq

/-- **Run.** And so does every interleaving of steps, by induction on `Reach`. -/
theorem OneSocket.reach (h : f.OneSocket address id count) (hr : Reach address f g) :
    g.OneSocket address id count := by
  induction hr with
  | refl => exact h
  | tail _ hs ih => exact ih.step hs

/-- No process is stuck: one that is `serving` can handle each reload to its end. -/
theorem OneSocket.reach_wake (h : f.OneSocket address id count) {c : Coordinator}
    {request : Signal} (hst : f.stage pid = some (.serving c)) (hr : request ≠ .shutdown) :
    ∃ v g, f.system.focus pid = some v ∧ Reach address f g ∧
      let t := c.wake System.surroundings v (.request request)
      g.system = t.state ∧ g.stage pid = some (.serving t.coordinator) := by
  obtain ⟨p, hp, -, hfits⟩ := h.fits pid _ hst
  obtain ⟨v, hv, -⟩ := System.exists_focus hp
  obtain ⟨g, hg⟩ := Lineage.reach_wake address hst hv hfits.phase_eq hr
  exact ⟨v, g, hv, hg⟩

/-! ## From a cold start on -/

/-- A process that bound `address` itself, in a system whose numbers are `Fresh`, is a lineage with
one socket. -/
theorem oneSocket_start {s₀ s₁ : System} {l : Listener} {events : List Event}
    (hfresh : s₀.Fresh) (hrun : s₀.self.status = none)
    (hcold : s₀.acquireFrom address none = ⟨.ok l, s₁, events⟩) :
    (start address s₁ l).OneSocket address s₀.sockets.length (s₀.sockets.length + 1) := by
  obtain ⟨hkind, sock, hb, hl⟩ := System.acquireFrom_cold hcold
  refine ⟨?_, hl, ?_, ?_, ?_, rfl⟩
  · intro p hp
    show p.pid < s₁.nextPid
    rw [hb.nextPid_eq]
    rcases List.mem_cons.mp hp with rfl | hp
    · show s₁.self.pid < s₀.nextPid
      rw [hb.pid_eq]
      exact hfresh _ List.mem_cons_self
    · refine hfresh p (List.mem_cons_of_mem _ ?_)
      rw [← hb.others_eq]
      exact hp
  · show s₁.sockets.length = _
    rw [hb.sockets_eq]
    simp
  · intro pid st hst
    simp only [start, Option.ite_none_right_eq_some, Option.some.injEq] at hst
    obtain ⟨rfl, rfl⟩ := hst
    refine ⟨s₁.self, System.process?_self s₁, hb.status_eq.trans hrun, rfl, rfl, ?_⟩
    intro l' hl'
    cases hl'
    exact ⟨hkind, hb.file?_eq⟩
  · exact ⟨s₁.self.pid, .serving (.ofListener address l), if_pos rfl, rfl⟩

/-- **No unbound window.** A first process has bound `address` (`hcold`), and from then on it and
all its descendants handle reloads of both kinds, in any order and interleaved step by step, with
launches that succeed or fail (`hf`). At every moment some process has the first socket `id` open,
and `id` still listens for `address`. All `handles` of every process refer to `id`. No process fails
to get a listener at its start, no other socket is made, and `f.binds`, the number of times one went
to bind the address, is 0. -/
theorem no_unbound_window {s₀ s₁ : System} {l : Listener} {events : List Event}
    (hfresh : s₀.Fresh) (hrun : s₀.self.status = none)
    (hcold : s₀.acquireFrom address none = ⟨.ok l, s₁, events⟩)
    (hf : Reach address (start address s₁ l) f) :
    let id := s₀.sockets.length
    (∃ pid st p fd, f.stage pid = some st ∧ f.system.process? pid = some p ∧ p.status = none ∧
      fd ∈ st.handles ∧ p.fds.file? fd = some (.socket id)) ∧
    f.system.isLive id = true ∧ f.system.ListensFor id (.parse address) ∧
    (∀ pid st, f.stage pid = some st → ∃ p, f.system.process? pid = some p ∧
      ∀ fd ∈ st.handles, p.fds.file? fd = some (.socket id)) ∧
    (∀ pid e, f.stage pid ≠ some (.failed e)) ∧
    f.system.sockets.length = s₁.sockets.length ∧ f.binds = 0 := by
  intro id
  have h₀ := oneSocket_start hfresh hrun hcold
  have h := h₀.reach hf
  -- Some process keeps a handle, and every process has its handles open on the socket.
  obtain ⟨pid, st, hst, hk⟩ := h.keeps
  obtain ⟨p, hp, hs, hfits⟩ := h.fits pid st hst
  obtain ⟨fd, hfd⟩ := hk.exists_handle
  have hopen := hfits.file?_eq fd hfd
  refine ⟨⟨pid, st, p, fd, hst, hp, hs, hfd, hopen⟩, System.isLive_of_file? hp hopen,
    h.listensFor, ?_, ?_, h.length_eq.trans h₀.length_eq.symm, h.binds_eq⟩
  · intro pid st hst
    obtain ⟨p, hp, -, hfits⟩ := h.fits pid st hst
    exact ⟨p, hp, hfits.file?_eq⟩
  · intro pid e hst
    obtain ⟨p, -, -, hfits⟩ := h.fits pid _ hst
    exact hfits

/-- A process has bound an address and then handled a reload after which it retires. -/
def retiredStep : Handoff.Step System :=
  (Coordinator.ofListener "/s" ⟨.unix, 3⟩).handle System.surroundings
    (System.idle.acquireFrom "/s" none).state .reloadRetire

/-- The listener of that process is closed, and the socket is alive. -/
theorem no_unbound_window_retired :
    (System.idle.acquireFrom "/s" none).result = .ok ⟨.unix, 3⟩ ∧
      retiredStep.coordinator.listener = none ∧ retiredStep.state.isLive 0 = true := by
  have hok : (System.idle.acquireFrom "/s" none).result = .ok ⟨.unix, 3⟩ := by rfl
  have hretired : retiredStep.coordinator.listener = none := by rfl
  refine ⟨hok, hretired, ?_⟩
  let o := System.idle.acquireFrom "/s" none
  have hcold : System.idle.acquireFrom "/s" none = ⟨.ok ⟨.unix, 3⟩, o.state, o.events⟩ :=
    hok ▸ rfl
  have hst : (start "/s" o.state ⟨.unix, 3⟩).stage o.state.self.pid =
      some (.serving (.ofListener "/s" ⟨.unix, 3⟩)) := by simp [start]
  have hne : Signal.reloadRetire ≠ .shutdown := by decide
  obtain ⟨g, hg, hsys, -⟩ := reach_handle "/s" hst (System.focus_self _) rfl hne
  rw [show retiredStep.state = g.system from hsys.symm]
  exact (no_unbound_window (by decide) rfl hcold hg).2.1

end Lineage

end Handoff
