import Handoff.Proofs.Coordinator.Loop
import Handoff.Proofs.Spawn.Failure

/-!
# A launch comes before a stop

A process stops accepting for a replacement only if that was launched and recorded before. So a
reload that fails changes nothing, and the listener goes on being served.

* `Coordinator.handle_reload_error`: what a reload does whose launch fails.
* `Coordinator.launch_before_stop`: that, the order of a whole run, and the failures of a process.
-/

namespace Handoff

namespace Coordinator

variable {σ : Type}

/-- **Failure.** A reload whose launch fails (`he`) leaves the coordinator as it is and asks for
nothing else. -/
theorem handle_reload_error (w : Surroundings σ) (c : Coordinator) (s : σ) {request : Signal}
    {l : Listener} {e : SpawnError} (hr : request ≠ .shutdown) (hp : c.phase = .serving)
    (hl : c.listener = some l) (he : (w.spawn s c.address l).result = .error e) :
    let t := c.handle w s request
    t.coordinator = c ∧ t.state = (w.spawn s c.address l).state ∧
      c.asked w s (.handle request) = [.spawn c.address l (.error e)] ∧
      t.actions.filter Action.isDeed = [.spawnTried c.address, .spawnFailed e] := by
  have hasked : c.asked w s (.handle request) = [.spawn c.address l (.error e)] := by
    simp [asked, perform, handle_reload _ _ _ hp hr, reload, hl, Surroundings.recording, he]
  have hdeeds := c.deeds_perform w s (.handle request)
  have hends : ¬ Turn.Ends ⟨.handle request, c, c.asked w s (.handle request)⟩ := by
    simpa [Turn.Ends] using hr
  rw [Turn.deeds, if_neg fun h => hends h.1, hasked] at hdeeds
  refine ⟨?_, ?_, hasked, hdeeds⟩
  · simp [handle_reload _ _ _ hp hr, reload, hl, he]
  · simp [handle_reload _ _ _ hp hr, reload, hl, he]

/-- **Order.** Stopping never comes before a launch.

* If the launch of a reload fails, the coordinator `c` stays as it is: its listener, its stop token,
  its phase and its children. Nothing was done but the launch that failed.
* Every scene of a run is `Orderly`: whatever stops is a part of a shutdown, or of a retirement
  after the launch of the same call has succeeded and its child was recorded.
* What a loop launches and stops is what the calls of such a run do, in this order.
* In a process, the launch fails at the export, at the plan or at the launch itself (`SpawnFault`),
  and everything is as it was before, the fd of the listener among it. -/
theorem launch_before_stop (w : Surroundings σ) (c : Coordinator) (s : σ) :
    (∀ request l e, request ≠ .shutdown → c.phase = .serving → c.listener = some l →
      (w.spawn s c.address l).result = .error e →
      let t := c.handle w s request
      t.coordinator = c ∧ t.state = (w.spawn s c.address l).state ∧
        c.asked w s (.handle request) = [.spawn c.address l (.error e)] ∧
        t.actions.filter Action.isDeed = [.spawnTried c.address, .spawnFailed e]) ∧
    (∀ calls, (c.scenes w s calls).map Scene.toTurn = ((History.start c s).after w calls).turns ∧
      ∀ x ∈ c.scenes w s calls, x.Orderly) ∧
    (∀ wakes, ∃ calls,
      let r := (c.run w s wakes).1
      let h := (History.start c s).after w calls
      r.coordinator = h.coordinator ∧ r.state = h.state ∧
        r.actions.filter Action.isDeed =
          (c.scenes w s calls).flatMap (·.actions.filter Action.isDeed)) ∧
    (∀ (p : System) request l e, request ≠ .shutdown → c.phase = .serving →
      c.listener = some l → (p.spawnReplacement c.address l).result = .error e →
      let t := c.handle System.surroundings p request
      t.coordinator = c ∧ t.state = p ∧ p.SpawnFault c.address l e) := by
  refine ⟨fun request l e hr hp hl he => c.handle_reload_error w s hr hp hl he,
    fun calls => ⟨?_, c.orderly_scenes w s calls⟩, fun wakes => ?_,
    fun p request l e hr hp hl he => ?_⟩
  · have hturns := turns_scenes w (.start c s) calls
    exact hturns.symm
  · by_cases hp : c.phase = .terminated
    · exact ⟨[], by simp [run_of_terminated w c s hp, History.after, History.start, scenes,
        Action.isDeed]⟩
    · obtain ⟨calls, -, -, hc, hs, -, hdeeds⟩ :=
        c.run_of_serving w s (Phase.ne_terminated_iff.mp hp) wakes
      exact ⟨calls, hc, hs, hdeeds.trans (deeds_scenes w c s calls).symm⟩
  -- In a process, the launch that failed has left the system alone as well.
  · obtain ⟨hc, hs, -⟩ := c.handle_reload_error System.surroundings p hr hp hl he
    exact ⟨hc, hs.trans (System.spawnReplacement_error he),
      System.spawnReplacement_error_iff.mp he⟩

/-- A process that runs `program`, as far as the system can tell, and has a listener at fd 3. -/
def running (program : Option OsText) : System :=
  let s := System.holding 3 ⟨.unix, .stream, true, .path "/s", 0⟩
  { s with self := { s.self with program := program } }

/-- Launches that fail, one at each stage, with the listener: datagrams are not exported, and
neither is a closed fd; a program can be unknown, have no directory, or be gone. -/
def failing : List (System × Listener × SpawnError) := [
  (running (some "/app"), ⟨.udp, 3⟩, .exporting (.unsupported .udp)),
  (running (some "/app"), ⟨.unix, 4⟩, .exporting (.duplicate .badDescriptor)),
  (running none, ⟨.unix, 3⟩, .currentProgram .entityNotFound),
  (running (some "/"), ⟨.unix, 3⟩, .noWorkingDir "/"),
  (running (some "/gone"), ⟨.unix, 3⟩, .launch "/gone" .notFound)]

theorem spawnReplacement_gone :
    ((running (some "/gone")).spawnReplacement "/s" ⟨.unix, 3⟩).result =
      .error (.launch "/gone" .notFound) := by
  refine System.spawnReplacement_error_iff.mpr (@System.SpawnFault.launch _ _ _ _ _ _ _
    ⟨"/gone", [], "/", _, childHandles 100⟩ _ rfl rfl rfl ?_)
  rw [SpawnPlan.launch, if_neg (by decide)]
  rfl

/-- A launch can fail at every stage, and nothing changes. -/
theorem launch_before_stop_stages :
    ∀ x ∈ failing,
      let c := Coordinator.ofListener "/s" x.2.1
      let t := c.handle System.surroundings x.1 .reloadRetire
      (x.1.spawnReplacement "/s" x.2.1).result = .error x.2.2 ∧
        t.coordinator = c ∧ t.state = x.1 := by
  intro x hx c t
  have he : (x.1.spawnReplacement "/s" x.2.1).result = .error x.2.2 := by
    simp only [failing, List.mem_cons, List.not_mem_nil, or_false] at hx
    rcases hx with rfl | rfl | rfl | rfl | rfl
    · rfl
    · rfl
    · rfl
    · rfl
    · exact spawnReplacement_gone
  obtain ⟨hc, hs, -⟩ := (launch_before_stop System.surroundings c x.1).2.2.2 x.1 .reloadRetire
    x.2.1 x.2.2 (by decide) rfl rfl he
  exact ⟨he, hc, hs⟩

end Coordinator

end Handoff
