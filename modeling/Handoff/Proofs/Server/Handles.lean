import Handoff.Proofs.Server.Steps

/-!
# Which fds of a server refer to its socket

A server has up to three fds on its socket: the one of the coordinator, the duplicate of the accept
loop, and in a reload the exported duplicate. The invariant says that there are no others, whatever
fds the process opens and closes besides, and so nothing is left of a socket that was given up.

* `Service.handles`: the fds that a server should have.
* `Stage.Work.heldBy`, `Service.Step.heldBy`: a step changes what is open and what should be alike.
* `Service.released_holds_none`: a server that has released its listener and whose accept loop has
  returned has no fd on the socket.
-/

namespace Handoff

namespace Stage

variable {v v' : System} {st st' : Stage} {id : Nat} {others : List Int}

/-- Once the listener of `c` is given up, only `others` refer to the socket. -/
theorem heldBy_released {c : Coordinator}
    (h : v.fds.HeldBy (.socket id) (c.listener.toList.map Listener.fd ++ others))
    (hv : v' = match c.listener with
      | none => v
      | some l => l.drop v) : v'.fds.HeldBy (.socket id) others := by
  cases hl : c.listener with
  | none =>
    rw [hl] at h hv
    rw [hv]
    exact h
  | some l =>
    rw [hl] at h hv
    rw [hv]
    exact h.close

/-- **Moves.** A `Move` opens or closes the very fd by which `handles` change. -/
theorem Move.heldBy (hm : st.Move v v' st')
    (h : v.fds.HeldBy (.socket id) (st.handles ++ others)) :
    v'.fds.HeldBy (.socket id) (st'.handles ++ others) := by
  cases hm with
  | ignore hl hr =>
    obtain ⟨hc, hs⟩ := Coordinator.handle_reload_of_none System.surroundings _ v hl hr
    rw [hc, hs]
    exact h
  | @reap c =>
    have hself : (c.reap System.surroundings v).state.self = v.self :=
      (System.frame_pollAll v c.children).2
    show (c.reap System.surroundings v).state.self.fds.HeldBy _ _
    rw [hself]
    exact h
  | @exportOk _ c l d handle retire hp hl hx =>
    obtain ⟨-, f, hf, hhandle, rfl, -⟩ := Listener.exportAs_eq_ok.mp hx
    -- The duplicate refers to what the listener refers to, which the invariant knows.
    have hsocket : v.fds.file? l.fd = some (.socket id) :=
      (h.file?_iff l.fd).mpr (by simp [handles, hl])
    rw [hsocket] at hf
    cases hf
    exact h.dup (hhandle ▸ FdTable.get?_lowestFree v.fds exportFloor) true
  | exportFails hl hx =>
    rw [Listener.exportAs_eq_error hx]
    exact h
  | launchFails he =>
    rw [System.spawnExported_error he]
    exact h
  | refused e => exact h
  | abandon => exact h.close
  | @record c retire handle child =>
    have hclosed := h.close
    cases retire with
    | true => exact hclosed
    | false => exact hclosed
  | @close c =>
    show (c.release System.surroundings v .retire).state.fds.HeldBy _
      ((c.release System.surroundings v .retire).coordinator.listener.toList.map _ ++ others)
    rw [Coordinator.release_coordinator]
    exact heldBy_released h (System.state_release v c .retire)

theorem Work.heldBy (hw : st.Work v v' st')
    (h : v.fds.HeldBy (.socket id) (st.handles ++ others)) :
    v'.fds.HeldBy (.socket id) (st'.handles ++ others) := by
  cases hw with
  | move hm => exact hm.heldBy h
  | launch ho =>
    obtain ⟨-, -, p, -, -, -, -, rfl⟩ := System.of_spawnExported ho
    exact h

end Stage

namespace Service

variable {id : Nat} {v w : Service} {ms : List Mark}

/-- The fds that a server should have on its socket: those of its stage, and that of the accept
loop. -/
def handles (v : Service) : List Int := v.stage.handles ++ v.acceptor.toList.map Listener.fd

/-- **Step.** After each `Step` the server has its `handles` on the socket, and no others. -/
theorem Step.heldBy (hs : Step id v ms w) (h : v.system.fds.HeldBy (.socket id) v.handles) :
    w.system.fds.HeldBy (.socket id) w.handles := by
  cases hs with
  | work hw => exact hw.heldBy h
  | @shutdown c hst hp =>
    unfold handles at h
    rw [hst] at h
    obtain ⟨hc, hstate⟩ := System.handle_shutdown_eq v.system hp
    show (c.handle System.surroundings v.system .shutdown).state.fds.HeldBy _
      ((c.handle System.surroundings v.system .shutdown).coordinator.listener.toList.map _ ++ _)
    rw [hc]
    exact Stage.heldBy_released h hstate
  -- Only the steps of the control loop and of the accept loop change `handles`; `opens` and
  -- `closes` change fds that are not among them.
  | @settle c _ =>
    rcases v.settle_cases c with hw | ⟨l, ha, -, hw⟩
    · rw [hw]
      exact h
    · rw [hw]
      unfold handles at h ⊢
      rw [ha] at h
      have hlast : (v.stage.handles ++ [l.fd]).Perm (l.fd :: (v.stage.handles ++ [])) := by
        rw [List.append_nil]
        exact List.perm_append_singleton ..
      exact (h.perm hlast).close
  | opens hfree he => exact h.insert_other hfree he
  | closes hf => exact h.erase_other hf
  | @world s hself =>
    show s.self.fds.HeldBy _ _
    rw [hself]
    exact h
  | _ => exact h

/-- **Run.** And so after every interleaving of steps: the fds of the socket `id` are the `handles`
of the server. -/
theorem Run.heldBy (hr : Run id v ms w) (h : v.system.fds.HeldBy (.socket id) v.handles) :
    w.system.fds.HeldBy (.socket id) w.handles := by
  induction hr with
  | refl => exact h
  | tail _ hs ih => exact hs.heldBy ih

/-- A server that starts from the one fd of `l` (`hown`) has that and one duplicate. -/
theorem heldBy_of_serve {s s' : System} {config : Config} {l : Listener} {i : Instance}
    {events : List Event} (hown : s.fds.HeldBy (.socket id) [l.fd])
    (hserve : s.serve config l = ⟨.ok i, s', events⟩) :
    (ofInstance s' 0 i).system.fds.HeldBy (.socket id) (ofInstance s' 0 i).handles := by
  obtain ⟨-, hc, -, duplicate, hclone, ha⟩ := of_serve hserve
  unfold Listener.tryClone at hclone
  cases hd : s.fds.dupAbove l.fd Listener.cloneFloor with
  | error e => simp [hd] at hclone
  | ok x =>
    obtain ⟨fd, t⟩ := x
    simp only [hd, Except.ok.injEq, Prod.mk.injEq] at hclone
    obtain ⟨rfl, rfl⟩ := hclone
    obtain ⟨f, hf, hfd, rfl⟩ := FdTable.dupAbove_eq_ok.mp hd
    rw [(hown.file?_iff l.fd).mpr List.mem_cons_self] at hf
    cases hf
    have hdup := hown.dup (hfd ▸ FdTable.get?_lowestFree s.fds Listener.cloneFloor) true
    unfold handles ofInstance Stage.handles
    rw [hc, ha]
    exact hdup.perm (List.Perm.swap ..)

/-- A coordinator without a listener (`hl`) is in no reload, as a stage that `Suits` has a listener
in every reload. So nothing is left once the accept loop has returned (`ha`). -/
theorem handles_of_released {address : String} {c : Coordinator} (hs : v.stage.Suits address)
    (hst : v.stage.coordinator? = some c) (hl : c.listener = none) (ha : v.acceptor = none) :
    v.handles = [] := by
  unfold handles
  rw [ha, List.append_eq_nil_iff]
  refine ⟨?_, rfl⟩
  cases hstage : v.stage with
  | launched | failed _ =>
    rw [hstage] at hst
    cases hst
  | serving c' | retiring c' =>
    rw [hstage] at hst
    cases hst
    simp [Stage.handles, hl]
  | exported c' _ _ _ | tried c' _ _ _ =>
    rw [hstage] at hst hs
    cases hst
    have hsome := hs.2
    simp [hl] at hsome

/-- **No fd is left.** A process has one fd on the socket `id`, of which its listener `l` is made,
be it bound afresh or taken over at any slot (`hown`), and begins to serve it. After any
interleaving of requests, failing and succeeding launches, connections and other work on its fds
(`hrun`), it has on the socket the fds of `v.stage.handles`, that is of the coordinator and of a
reload, the duplicate `v.acceptor`, and no other fd. So once the coordinator has released the
listener and the accept loop has returned, no fd refers to the socket. -/
theorem released_holds_none {s s' : System} {config : Config} {l : Listener} {i : Instance}
    {events : List Event} (hown : ∀ fd, s.fds.file? fd = some (.socket id) ↔ fd = l.fd)
    (hserve : s.serve config l = ⟨.ok i, s', events⟩) (hrun : Run id (ofInstance s' 0 i) ms v) :
    (∀ fd, v.system.fds.file? fd = some (.socket id) ↔
      fd ∈ v.stage.handles ∨ ∃ a, v.acceptor = some a ∧ fd = a.fd) ∧
    ∀ c, v.stage.coordinator? = some c → c.listener = none → v.acceptor = none →
      ∀ fd, v.system.fds.file? fd ≠ some (.socket id) := by
  have hone : s.fds.HeldBy (.socket id) [l.fd] :=
    ⟨fun fd => by rw [hown, List.mem_singleton], List.nodup_singleton _⟩
  have hheld := hrun.heldBy (heldBy_of_serve hone hserve)
  have hsuits : v.stage.Suits config.addr := by
    refine hrun.suits ?_
    show i.coordinator.address = config.addr
    rw [(of_serve hserve).2.1]
    rfl
  -- The duplicate of a reload is the only one that could be left, and a reload has a listener.
  refine ⟨fun fd => ?_, fun c hst hl ha fd hfd => ?_⟩
  · rw [hheld.file?_iff, handles, List.mem_append]
    simp [eq_comm]
  · rw [hheld.file?_iff, handles_of_released hsuits hst hl ha] at hfd
    cases hfd

/-- `unixInstance` has launched a replacement and retired. -/
theorem released_holds_none_retired :
    let t := unixInstance.obey unixStart.state .reloadRetire
    let u := t.1.settle t.2.1
    u.1.coordinator.children.length = 1 ∧ u.1.coordinator.listener = none ∧ u.1.acceptor = none ∧
      ∀ fd, u.2.1.fds.file? fd ≠ some (.socket 0) := by
  intro t u
  have hnone : FdTable.HeldBy System.idle.fds (.socket 0) [] := FdTable.heldBy_nil (by decide)
  have hown : System.servingUnix.fds.HeldBy (.socket 0) [3] := hnone.dup (by decide) true
  have hrun : Run 0 (ofInstance unixStart.state 0 unixInstance) [] (ofInstance u.2.1 0 u.1) :=
    (run_obey unixInstance unixStart.state 0 .reloadRetire).trans (run_settle t.1 t.2.1 0)
  have hreleased : u.1.coordinator.listener = none := by rfl
  refine ⟨by rfl, hreleased, by rfl, ?_⟩
  have hfd : ∀ fd, System.servingUnix.fds.file? fd = some (.socket 0) ↔ fd = 3 := fun fd =>
    (hown.file?_iff fd).trans List.mem_singleton
  exact (released_holds_none hfd unixStart_eq hrun).2 _ rfl hreleased (by rfl)

end Service

end Handoff
