import Handoff.Program
import Handoff.Proofs.Coordinator.Order

/-!
# Calls in a world that goes on

Between two calls of a coordinator its world goes on: children exit, and others open and close what
they like. In a course every call is made in a world of its own, so nothing is said of how one comes
from the other.

* `Coordinator.course`, `Coordinator.afterCourse`: the calls of a course, and what they lead to.
* `Coordinator.scenes_eq_course`: the runs in one world are courses.
* `Surroundings.byHandle`: children are polled through their handles (`System.surroundings_eq`).
* `Scene.own`: what the coordinator reports itself, without what its launches report.
* `Turn.account`, `Coordinator.own_scene`: the reports of a call follow from what it asks for.
-/

namespace Handoff

namespace Coordinator

variable {σ : Type} (w : Surroundings σ)

/-- What happens in some calls, each made in the world `s` as it is then. -/
def course (c : Coordinator) : List (σ × Call) → List Scene
  | [] => []
  | (s, k) :: steps => c.scene w s k :: course (c.perform w s k).coordinator steps

def afterCourse (c : Coordinator) (steps : List (σ × Call)) : Coordinator :=
  steps.foldl (fun c (s, k) => (c.perform w s k).coordinator) c

/-- What holds of every scene holds of all scenes of a `course`. -/
theorem forall_course {P : Scene → Prop} (h : ∀ (c : Coordinator) s k, P (c.scene w s k))
    (c : Coordinator) (steps : List (σ × Call)) : ∀ x ∈ c.course w steps, P x := by
  induction steps generalizing c with
  | nil => simp [course]
  | cons step steps ih =>
    intro x hx
    rcases List.mem_cons.mp hx with rfl | hx
    · exact h ..
    · exact ih _ x hx

/-- A run in a world that only the coordinator changes is a `course`. -/
theorem scenes_eq_course (c : Coordinator) (s : σ) (calls : List Call) :
    ∃ steps : List (σ × Call), steps.map Prod.snd = calls ∧
      c.scenes w s calls = c.course w steps ∧
      ((History.start c s).after w calls).coordinator = c.afterCourse w steps := by
  -- The histories grow at their end and the calls are taken from the front, so the induction is
  -- over all beginnings `h`.
  suffices ∀ h : History σ, ∃ steps : List (σ × Call), steps.map Prod.snd = calls ∧
      h.coordinator.scenes w h.state calls = h.coordinator.course w steps ∧
      (h.after w calls).coordinator = h.coordinator.afterCourse w steps from this (.start c s)
  induction calls with
  | nil => exact fun h => ⟨[], rfl, rfl, rfl⟩
  | cons k calls ih =>
    intro h
    obtain ⟨steps, hcalls, hscenes, hafter⟩ := ih (h.next w k)
    refine ⟨(h.state, k) :: steps, congrArg (k :: ·) hcalls, ?_, hafter⟩
    exact congrArg (h.coordinator.scene w h.state k :: ·) hscenes

end Coordinator

/-! ## Polls -/

/-- The surroundings `w`, in which children are polled through their handles: a child that is not
`tracked` seems to run, and for any other one `ask` gives the answer, the status to keep and the
world afterwards. -/
def Surroundings.byHandle {σ : Type} (w : Surroundings σ)
    (ask : σ → Child → Except IoError (Option ExitStatus) × Option ExitStatus × σ) :
    Surroundings σ :=
  { w with
    poll := fun s child =>
      if child.tracked then
        let (answer, status, s') := ask s child
        (answer, { child with status := status }, s')
      else (.ok none, child, s) }

/-- Asks the system for the status of a `tracked` child. -/
def System.ask (s : System) (child : Child) :
    Except IoError (Option ExitStatus) × Option ExitStatus × System :=
  match child.status with
  | some status => (.ok (some status), some status, s)
  | none =>
    match s.collect child.pid with
    | .error e => (.error e, none, s)
    | .ok (status, s') => (.ok status, status, s')

/-- A process polls its children `byHandle`. -/
theorem System.surroundings_eq :
    System.surroundings = System.surroundings.byHandle System.ask := by
  have hpoll : System.surroundings.poll = (System.surroundings.byHandle System.ask).poll := by
    funext s ⟨pid, tracked, status⟩
    cases tracked with
    | false => rfl
    | true =>
      cases status with
      | some status => rfl
      | none =>
        simp only [surroundings, Child.poll, Surroundings.byHandle, ask]
        cases s.collect pid <;> rfl
  exact congrArg (fun poll => { System.surroundings with poll }) hpoll

/-- A child as its handle knows it, whatever was asked of it. -/
def Child.mark (child : Child) : Nat × Bool := (child.pid, child.tracked)

namespace Invocation

def launched? : Invocation → Option Child
  | .spawn _ _ (.ok child) => some child
  | _ => none

def polled? : Invocation → Option Child
  | .poll child _ => some child
  | _ => none

def exit? : Invocation → Option ExitStatus
  | .poll _ (.ok status) => status
  | _ => none

/-- The actions that come of a poll. -/
def seen : Invocation → List Action
  | .poll child (.ok (some status)) =>
    [.collected child.pid status, .report (.childExited child.pid status)]
  | .poll child (.error e) => [.report (.pollFailed child.pid e)]
  | _ => []

end Invocation

/-- The children that were launched in a call, by the launches in `t.asked`. -/
def Turn.launched (t : Turn) : List Child := t.asked.filterMap Invocation.launched?

namespace Coordinator

variable {σ : Type} (w : Surroundings σ)

/-- `reap` asks for the status of every child that is left, in order. -/
theorem asked_reap (c : Coordinator) (s : σ) : c.asked w s .reap = polls w s c.children := by
  simp [asked, perform, reap, pollAll_recording]

theorem polled_polls (s : σ) (cs : List Child) :
    (polls w s cs).map Invocation.polled? = cs.map some := by
  induction cs generalizing s with
  | nil => rfl
  | cons child cs ih => simp [polls, Invocation.polled?, ih]

variable (ask : σ → Child → Except IoError (Option ExitStatus) × Option ExitStatus × σ)

/-- A handle stays the same, whatever `ask` is asked through it. -/
theorem mark_poll (s : σ) (child : Child) :
    ((w.byHandle ask).poll s child).2.1.mark = child.mark := by
  cases ht : child.tracked <;> simp [Surroundings.byHandle, ht, Child.mark]

/-- What `pollAll` does comes of the single polls. -/
theorem actions_pollAll (s : σ) (cs : List Child) :
    (pollAll (w.byHandle ask) s cs).2.2 =
      (polls (w.byHandle ask) s cs).flatMap Invocation.seen := by
  induction cs generalizing s with
  | nil => rfl
  | cons child cs ih =>
    have hrest := ih ((w.byHandle ask).poll s child).2.2
    have hpid : ((w.byHandle ask).poll s child).2.1.pid = child.pid :=
      congrArg Prod.fst (mark_poll w ask s child)
    rcases hp : (w.byHandle ask).poll s child with ⟨_ | _ | status, child', s'⟩ <;>
      rw [hp] at hrest hpid <;>
      simp [pollAll, polls, hp, hrest, Invocation.seen, ← hpid]

/-- The children of `cs` stay of whom no status was collected, in order. -/
theorem kept_pollAll (s : σ) (cs : List Child) :
    (pollAll (w.byHandle ask) s cs).1.map Child.mark =
      ((polls (w.byHandle ask) s cs).filter (·.exit?.isNone)).filterMap
        fun i => i.polled?.map Child.mark := by
  induction cs generalizing s with
  | nil => rfl
  | cons child cs ih =>
    have hrest := ih ((w.byHandle ask).poll s child).2.2
    have hmark := mark_poll w ask s child
    rcases hp : (w.byHandle ask).poll s child with ⟨_ | _ | status, child', s'⟩ <;>
      rw [hp] at hrest hmark <;>
      simp [pollAll, polls, hp, hrest, Invocation.exit?, Invocation.polled?, hmark]

/-- Of a child that is not `tracked` no status is collected. -/
theorem exit?_of_untracked (s : σ) (cs : List Child) :
    ∀ i ∈ polls (w.byHandle ask) s cs, ∀ child, i.polled? = some child → child.tracked = false →
      i.exit? = none := by
  induction cs generalizing s with
  | nil => simp [polls]
  | cons child cs ih =>
    intro i hi child' hchild ht
    rcases List.mem_cons.mp hi with rfl | hi
    · cases hchild
      simp [Surroundings.byHandle, ht, Invocation.exit?]
    · exact ih _ i hi child' hchild ht

end Coordinator

/-! ## What a coordinator reports itself -/

namespace Action

/-- The events that are reported while a launch is going on, or with `launch = false` while none is;
`launching` tells whether one is at first. -/
def reports (launch : Bool) : Bool → List Action → List Event
  | _, [] => []
  | _, .spawnTried _ :: as => reports launch true as
  | _, .spawnSucceeded _ :: as => reports launch false as
  | _, .spawnFailed _ :: as => reports launch false as
  | launching, .report e :: as =>
    if launching = launch then e :: reports launch launching as else reports launch launching as
  | launching, .recorded _ :: as => reports launch launching as
  | launching, .cancelled :: as => reports launch launching as
  | launching, .released _ _ :: as => reports launch launching as
  | launching, .collected _ _ :: as => reports launch launching as

theorem reports_launching (launch : Bool) (events : List Event) (as : List Action) :
    reports launch true (events.map .report ++ as) =
      (if launch then events else []) ++ reports launch true as := by
  induction events with
  | nil => cases launch <;> rfl
  | cons e events ih => cases launch <;> simp_all [reports]

/-- The actions of a round of polls report nothing while `launch` is set, and all their events
otherwise. -/
theorem reports_seen (launch : Bool) (asked : List Invocation) :
    reports launch false (asked.flatMap Invocation.seen) =
      if launch then [] else (asked.flatMap Invocation.seen).filterMap Action.event? := by
  induction asked with
  | nil => cases launch <;> rfl
  | cons i asked ih =>
    rcases i with _ | _ | ⟨child, _ | _ | status⟩ <;> cases launch <;>
      simp_all [Invocation.seen, reports, List.filterMap_cons, Action.event?]

end Action

/-- The events of `x.actions` that the coordinator reports itself. -/
def Scene.own (x : Scene) : List Event := Action.reports false false x.actions

def Signal.reason : Signal → Reason
  | .shutdown => .shutdown
  | _ => .retire

/-- What is told of a launch and a closing in answer to `request`; `name` is the listener's. -/
def Invocation.told (request : Signal) (name : String) : Invocation → List Event
  | .spawn _ _ (.ok child) => [.forked child.pid (decide (request = .reloadRetire))]
  | .spawn address _ (.error e) => [.reloadFailed address e.message]
  | .close _ (.ok ()) => [.closed request.reason name]
  | .close _ (.error e) => [.closeFailed request.reason name e]
  | .poll _ _ => []

/-- What is told of `request` if it finds no listener. -/
def Coordinator.missing (c : Coordinator) (request : Signal) : List Event :=
  match c.listener with
  | some _ => []
  | none =>
    if request = .shutdown then [.alreadyReleased .shutdown] else [.nothingToHandOff c.address]

/-- What is told of a call, in order. -/
def Turn.account (name : String) (t : Turn) : List Event :=
  match t.call with
  | .reap => (t.asked.flatMap Invocation.seen).filterMap Action.event?
  | .handle request =>
    match t.before.phase with
    | .terminated => [.alreadyTerminated request]
    | .serving => .signalReceived request ::
      (t.asked.flatMap (Invocation.told request name) ++ t.before.missing request)

namespace Coordinator

variable {σ : Type} (w : Surroundings σ) (c : Coordinator) (s : σ)

theorem own_release (request : Signal) :
    ∃ name, Action.reports false false (c.release w s request.reason).actions =
      match c.listener with
      | none => [.alreadyReleased request.reason]
      | some l => Invocation.told request name (.close l (w.close s l).1) := by
  unfold release
  cases c.listener with
  | none => exact ⟨"", rfl⟩
  | some l =>
    refine ⟨w.name s l, ?_⟩
    rcases hclose : w.close s l with ⟨_ | _, s'⟩ <;>
      simp [hclose, Action.reports, Invocation.told]

theorem own_reload {request : Signal} (hr : request ≠ .shutdown) :
    ∃ name, Action.reports false false (c.reload w s (decide (request = .reloadRetire))).actions =
      (c.reload w.recording (s, []) (decide (request = .reloadRetire))).state.2.flatMap
        (Invocation.told request name) ++ c.missing request := by
  unfold reload missing
  cases hl : c.listener with
  | none => exact ⟨"", by simp [Action.reports, hr]⟩
  | some l =>
    cases ho : (w.spawn s c.address l).result with
    | error e =>
      refine ⟨"", ?_⟩
      simp [Surroundings.recording, ho, Action.reports, Action.reports_launching, Invocation.told]
    | ok child =>
      by_cases hretire : request = .reloadRetire
      · subst hretire
        refine ⟨w.name (w.spawn s c.address l).state l, ?_⟩
        rcases hclose : w.close (w.spawn s c.address l).state l with ⟨_ | _, s'⟩ <;>
          simp [Surroundings.recording, ho, Action.reports, Action.reports_launching,
            Invocation.told, Step.andThen, release, hclose, Signal.reason]
      · refine ⟨"", ?_⟩
        simp [Surroundings.recording, ho, hretire, Action.reports, Action.reports_launching,
          Invocation.told]

variable (ask : σ → Child → Except IoError (Option ExitStatus) × Option ExitStatus × σ)

/-- **Account.** What a coordinator reports of the call `k` follows from what it is just before and
from what `k` asks for. -/
theorem own_scene (k : Call) :
    ∃ name, (c.scene (w.byHandle ask) s k).own =
      (c.scene (w.byHandle ask) s k).toTurn.account name := by
  cases k with
  | reap =>
    refine ⟨"", ?_⟩
    simp only [Scene.own, scene, Turn.account, asked_reap, perform, reap, actions_pollAll]
    exact Action.reports_seen false _
  | handle request =>
    simp only [Scene.own, scene, Turn.account, asked, perform]
    cases hp : c.phase with
    | terminated =>
      refine ⟨"", ?_⟩
      rw [handle_terminated _ _ _ hp]
      rfl
    | serving =>
      -- A shutdown releases, any other request reloads; the event of the request itself comes in
      -- front of both.
      by_cases hr : request = .shutdown
      · subst hr
        obtain ⟨name, hname⟩ := c.own_release (w.byHandle ask) s .shutdown
        refine ⟨name, ?_⟩
        rw [handle_shutdown _ _ _ hp, handle_shutdown _ _ _ hp]
        simp only [Action.reports, release_recording, missing]
        refine congrArg (Event.signalReceived .shutdown :: ·) (hname.trans ?_)
        cases c.listener <;> simp [Step.logged, Signal.reason]
      · obtain ⟨name, hname⟩ := c.own_reload (w.byHandle ask) s hr
        refine ⟨name, ?_⟩
        rw [handle_reload _ _ _ hp hr, handle_reload _ _ _ hp hr]
        exact congrArg (Event.signalReceived request :: ·) hname

end Coordinator

end Handoff
