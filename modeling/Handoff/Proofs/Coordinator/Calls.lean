import Handoff.Coordinator.Basic

/-!
# The calls of a coordinator and what they ask for

A coordinator is driven from outside by two calls, and in turn asks its surroundings to launch, to
close and to poll. Surroundings can be made to write down what they are asked and what they answer,
which changes nothing else.

* `Call`, `Coordinator.perform`: the two calls.
* `Surroundings.recording`: surroundings that write down every request.
* `Coordinator.perform_recording`: the coordinator cannot tell.
* `Coordinator.Move`, `Coordinator.move_perform`: everything that a call can do.
-/

namespace Handoff

inductive Call where
  | handle (request : Signal)
  /-- Exited children are forgotten. -/
  | reap
  deriving DecidableEq, Repr

/-- What surroundings were asked for, with the `result` that they gave. -/
inductive Invocation where
  | spawn (address : String) (l : Listener) (result : Except SpawnError Child)
  | close (l : Listener) (result : Except IoError Unit)
  | poll (c : Child) (result : Except IoError (Option ExitStatus))

variable {σ : Type}

/-- The surroundings `w`, which also write down what they are asked. -/
def Surroundings.recording (w : Surroundings σ) : Surroundings (σ × List Invocation) where
  spawn := fun (s, log) address l =>
    let o := w.spawn s address l
    ⟨o.result, (o.state, log ++ [.spawn address l o.result]), o.events⟩
  close := fun (s, log) l =>
    let (result, s') := w.close s l
    (result, (s', log ++ [.close l result]))
  name := fun (s, _) l => w.name s l
  poll := fun (s, log) c =>
    let (result, c', s') := w.poll s c
    (result, c', (s', log ++ [.poll c result]))

namespace Coordinator

def perform (w : Surroundings σ) (c : Coordinator) (s : σ) : Call → Step σ
  | .handle request => c.handle w s request
  | .reap => c.reap w s

/-- What the call `k` asks its surroundings for, in order. -/
def asked (w : Surroundings σ) (c : Coordinator) (s : σ) (k : Call) : List Invocation :=
  (c.perform w.recording (s, []) k).state.2

end Coordinator

/-- The step `t`, with `asked` written down behind `log`. -/
def Step.logged (t : Step σ) (log asked : List Invocation) : Step (σ × List Invocation) :=
  ⟨t.coordinator, (t.state, log ++ asked), t.actions⟩

namespace Coordinator

/-- What a call can do to `c`, with what it asks for and what it is told. -/
inductive Move (c : Coordinator) : Call → List Invocation → Coordinator → Prop
  /-- After the end, requests are ignored. -/
  | ignored {request : Signal} : c.phase = .terminated → Move c (.handle request) [] c
  /-- Without a listener there is nothing to hand off. -/
  | nothing {request : Signal} : c.phase = .serving → c.listener = none →
      request ≠ .shutdown → Move c (.handle request) [] c
  | failed {request : Signal} {l : Listener} {e : SpawnError} : c.phase = .serving →
      c.listener = some l → request ≠ .shutdown →
      Move c (.handle request) [.spawn c.address l (.error e)] c
  /-- A launch succeeds, and the listener stays. -/
  | joined {l : Listener} {child : Child} : c.phase = .serving → c.listener = some l →
      Move c (.handle .reloadCoexist) [.spawn c.address l (.ok child)]
        { c with children := c.children ++ [child] }
  /-- A launch succeeds, and then the listener is closed. -/
  | retired {l : Listener} {child : Child} {result : Except IoError Unit} : c.phase = .serving →
      c.listener = some l →
      Move c (.handle .reloadRetire) [.spawn c.address l (.ok child), .close l result]
        { c with children := c.children ++ [child], stopped := true, listener := none }
  /-- The end, with the listener. -/
  | ended {l : Listener} {result : Except IoError Unit} : c.phase = .serving →
      c.listener = some l →
      Move c (.handle .shutdown) [.close l result]
        { c with stopped := true, listener := none, phase := .terminated }
  /-- The end, after the listener was handed off. -/
  | endedLate : c.phase = .serving → c.listener = none →
      Move c (.handle .shutdown) [] { c with stopped := true, phase := .terminated }
  /-- Children are polled, and some of them are forgotten. -/
  | reaped {asked : List Invocation} {kept : List Child} :
      (∀ i ∈ asked, ∃ child result, i = .poll child result) →
      Move c .reap asked { c with children := kept }

variable (w : Surroundings σ) (c : Coordinator) (s : σ)

/-- The polls of the children `cs`, one after the other, with their answers. -/
def polls (s : σ) : List Child → List Invocation
  | [] => []
  | child :: cs => .poll child (w.poll s child).1 :: polls (w.poll s child).2.2 cs

theorem eq_poll_of_mem_polls (cs : List Child) :
    ∀ i ∈ polls w s cs, ∃ child result, i = .poll child result := by
  induction cs generalizing s with
  | nil => simp [polls]
  | cons child cs ih =>
    intro i hi
    rcases List.mem_cons.mp hi with rfl | hi
    · exact ⟨_, _, rfl⟩
    · exact ih _ i hi

/-- A round of polls asks for nothing but `polls`. -/
theorem pollAll_recording (log : List Invocation) (cs : List Child) :
    pollAll w.recording (s, log) cs =
      ((pollAll w s cs).1, ((pollAll w s cs).2.1, log ++ polls w s cs), (pollAll w s cs).2.2) := by
  induction cs generalizing s log with
  | nil => simp [pollAll, polls]
  | cons child cs ih =>
    -- The others are polled behind a log that has this poll already.
    have hl := ih (w.poll s child).2.2 (log ++ [.poll child (w.poll s child).1])
    simp only [List.append_assoc, List.cons_append, List.nil_append] at hl
    rcases hp : w.poll s child with ⟨_ | _ | status, child', s'⟩ <;>
      simp [pollAll, polls, Surroundings.recording, hp] at hl ⊢ <;> simp [hl]

/-- `release` asks to close the listener if there is one. -/
theorem release_recording (log : List Invocation) (reason : Reason) :
    c.release w.recording (s, log) reason = (c.release w s reason).logged log
      (c.listener.toList.map fun l => .close l (w.close s l).1) := by
  unfold release
  cases c.listener with
  | none => simp [Step.logged]
  | some l => rfl

theorem release_coordinator (reason : Reason) :
    (c.release w s reason).coordinator = { c with stopped := true, listener := none } := by
  unfold release
  split
  · rename_i h; simp [← h]
  · rfl

/-- `reload` asks to launch if there is a listener, and with `retire` to close it once a replacement
runs. -/
theorem reload_recording_move {request : Signal} (hp : c.phase = .serving)
    (hr : request ≠ .shutdown) :
    let retire := decide (request = .reloadRetire)
    ∃ asked, (∀ log, c.reload w.recording (s, log) retire =
        (c.reload w s retire).logged log asked) ∧
      Move c (.handle request) asked (c.reload w s retire).coordinator := by
  intro retire
  -- The three outcomes of a reload, and the third by what is to become of the listener: each is one
  -- constructor of `Move`, and its `asked` is read off.
  cases hl : c.listener with
  | none =>
    refine ⟨[], fun log => by simp [reload, hl, Step.logged], ?_⟩
    simpa [reload, hl] using Move.nothing hp hl hr
  | some l =>
    cases ho : (w.spawn s c.address l).result with
    | error e =>
      refine ⟨[.spawn c.address l (.error e)], fun log => ?_, ?_⟩
      · simp [reload, hl, Surroundings.recording, ho, Step.logged]
      · simpa [reload, hl, ho] using Move.failed hp hl hr
    | ok child =>
      cases request with
      | shutdown => exact (hr rfl).elim
      | reloadCoexist =>
        refine ⟨[.spawn c.address l (.ok child)], fun log => ?_, ?_⟩
        · simp [reload, hl, Surroundings.recording, ho, Step.logged, retire]
        · simpa [reload, hl, ho, retire] using Move.joined hp hl
      | reloadRetire =>
        refine ⟨[.spawn c.address l (.ok child),
          .close l (w.close (w.spawn s c.address l).state l).1], fun log => ?_, ?_⟩
        · simp [reload, hl, Surroundings.recording, ho, Step.logged, retire, Step.andThen, release]
        · simpa [reload, hl, ho, retire, Step.andThen, release_coordinator] using
            Move.retired hp hl

theorem handle_terminated (hp : c.phase = .terminated) (request : Signal) :
    c.handle w s request = ⟨c, s, [.report (.alreadyTerminated request)]⟩ := by
  simp [handle, hp]

theorem handle_shutdown (hp : c.phase = .serving) :
    c.handle w s .shutdown =
      let t := c.release w s .shutdown
      ⟨{ t.coordinator with phase := .terminated }, t.state,
        .report (.signalReceived .shutdown) :: t.actions⟩ := by
  simp [handle, hp, Step.andThen]

theorem handle_reload {request : Signal} (hp : c.phase = .serving) (hr : request ≠ .shutdown) :
    c.handle w s request =
      let t := c.reload w s (decide (request = .reloadRetire))
      ⟨t.coordinator, t.state, .report (.signalReceived request) :: t.actions⟩ := by
  cases request with
  | shutdown => exact (hr rfl).elim
  | _ => simp [handle, hp, Step.andThen]

theorem handle_reload_of_none {request : Signal} (hl : c.listener = none)
    (hr : request ≠ .shutdown) :
    (c.handle w s request).coordinator = c ∧ (c.handle w s request).state = s := by
  cases hp : c.phase with
  | terminated => simp [handle_terminated _ _ _ hp]
  | serving => simp [handle_reload _ _ _ hp hr, reload, hl]

/-- A recorded call does the same and writes down what it `asked`, which is the same behind every
`log`, and it makes one `Move`. -/
theorem perform_recording_move (k : Call) :
    ∃ asked, (∀ log, c.perform w.recording (s, log) k = (c.perform w s k).logged log asked) ∧
      Move c k asked (c.perform w s k).coordinator := by
  cases k with
  | reap =>
    refine ⟨polls w s c.children, fun log => ?_, .reaped (eq_poll_of_mem_polls w s _)⟩
    simp [perform, reap, pollAll_recording, Step.logged]
  | handle request =>
    simp only [perform]
    cases hp : c.phase with
    | terminated =>
      refine ⟨[], fun log => ?_, ?_⟩
      · simp [handle_terminated _ _ _ hp, Step.logged]
      · simpa [handle_terminated _ _ _ hp] using Move.ignored hp
    | serving =>
      by_cases hr : request = .shutdown
      · subst hr
        refine ⟨c.listener.toList.map fun l => .close l (w.close s l).1, fun log => ?_, ?_⟩
        · simp [handle_shutdown _ _ _ hp, release_recording, Step.logged]
        · simp only [handle_shutdown _ _ _ hp, release_coordinator]
          cases hl : c.listener with
          | none => simpa [hl] using Move.endedLate hp hl
          | some l => exact .ended hp hl
      · obtain ⟨asked, hrec, hmove⟩ := c.reload_recording_move w s hp hr
        refine ⟨asked, fun log => ?_, ?_⟩
        · simp [handle_reload _ _ _ hp hr, hrec, Step.logged]
        · simpa [handle_reload _ _ _ hp hr] using hmove

/-- **Recording.** The coordinator cannot tell that `w.recording` writes its requests down. -/
theorem perform_recording (log : List Invocation) (k : Call) :
    c.perform w.recording (s, log) k = (c.perform w s k).logged log (c.asked w s k) := by
  obtain ⟨asked, h, -⟩ := c.perform_recording_move w s k
  rw [Coordinator.asked, h, h]
  rfl

/-- **Moves.** Every call makes one `Move`. -/
theorem move_perform (k : Call) : Move c k (c.asked w s k) (c.perform w s k).coordinator := by
  obtain ⟨asked, h, hmove⟩ := c.perform_recording_move w s k
  rw [Coordinator.asked, h]
  exact hmove

end Coordinator

end Handoff
