import Handoff.Proofs.Coordinator.Runs

/-!
# The order of what is done

A call does one thing after the other: it launches, records the child, tells the accept loops to
stop and gives the listener up. The order cannot be told from the state at the end, so it is told
from the actions of each call and from the requests that its surroundings see.

* `Action.isDeed`, `Turn.deeds`: the actions besides reports, as they follow from the requests.
* `Coordinator.deeds_perform`: every call does just those, in this order.
* `Scene`, `Coordinator.scenes`: the calls of a run with all that was done in them.
* `Scene.Orderly`: stopping belongs to a shutdown, or comes behind a launch that is recorded.
* `Coordinator.orderly_scene`, `Coordinator.orderly_scenes`: every call is so, and every run.
-/

namespace Handoff

namespace Action

/-- The accept loops are told to stop, or the listener is given up. -/
def Stops : Action → Prop
  | .cancelled => True
  | .released _ _ => True
  | _ => False

/-- Whether an action is a part of a launch or of a stop. -/
def isDeed : Action → Bool
  | .report _ => false
  | .collected _ _ => false
  | _ => true

theorem Stops.isDeed {a : Action} (h : a.Stops) : a.isDeed = true := by
  cases a <;> first | rfl | exact h.elim

end Action

instance (t : Turn) : Decidable t.Ends := inferInstanceAs (Decidable (_ = _))

/-- The deeds that belong to a request, in order. -/
def Invocation.deeds : Invocation → List Action
  | .spawn address _ (.ok child) =>
    [.spawnTried address, .spawnSucceeded child.pid, .recorded child.pid]
  | .spawn address _ (.error e) => [.spawnTried address, .spawnFailed e]
  | .close l result => [.cancelled, .released l result]
  | .poll _ _ => []

/-- The deeds that belong to the requests of a call, in order. A shutdown without a listener asks
for nothing, and the accept loops are told to stop all the same. -/
def Turn.deeds (t : Turn) : List Action :=
  if t.Ends ∧ t.before.phase = .serving ∧ t.before.listener = none then [.cancelled]
  else t.asked.flatMap Invocation.deeds

theorem Phase.ne_terminated_iff {p : Phase} : p ≠ .terminated ↔ p = .serving := by
  cases p <;> simp

theorem Coordinator.Move.polls_of_reap {c c' : Coordinator} {asked : List Invocation}
    (hm : c.Move .reap asked c') : ∀ i ∈ asked, ∃ child result, i = .poll child result := by
  cases hm with
  | reaped hpoll => exact hpoll

namespace Coordinator

variable {σ : Type} (w : Surroundings σ) (c : Coordinator) (s : σ)

theorem deeds_pollAll (cs : List Child) :
    (pollAll w s cs).2.2.filter Action.isDeed = [] := by
  induction cs generalizing s with
  | nil => rfl
  | cons child cs ih =>
    have hrest := ih (w.poll s child).2.2
    rcases hp : w.poll s child with ⟨_ | _ | status, child', s'⟩ <;>
      rw [hp] at hrest <;> simpa [pollAll, hp, Action.isDeed] using hrest

theorem deeds_reports (events : List Event) :
    (events.map Action.report).filter Action.isDeed = [] := by
  simp [Action.isDeed]

theorem deeds_release (reason : Reason) :
    (c.release w s reason).actions.filter Action.isDeed =
      if c.listener = none then [.cancelled]
      else (c.release w.recording (s, []) reason).state.2.flatMap Invocation.deeds := by
  unfold release
  cases c.listener <;> rfl

theorem deeds_reload (retire : Bool) :
    (c.reload w s retire).actions.filter Action.isDeed =
      (c.reload w.recording (s, []) retire).state.2.flatMap Invocation.deeds := by
  unfold reload
  cases hl : c.listener with
  | none => rfl
  | some l =>
    cases ho : (w.spawn s c.address l).result with
    | error e =>
      simp [Surroundings.recording, ho, List.filter_cons, List.filter_append, deeds_reports,
        Action.isDeed, Invocation.deeds]
    | ok child =>
      cases retire <;>
        simp [Surroundings.recording, ho, List.filter_cons, List.filter_append, deeds_reports,
          Action.isDeed, Invocation.deeds, Step.andThen, release]

/-- **Deeds.** A call launches and stops just as it `asked` its surroundings to, in the same
order. -/
theorem deeds_perform (k : Call) :
    (c.perform w s k).actions.filter Action.isDeed = Turn.deeds ⟨k, c, c.asked w s k⟩ := by
  cases k with
  | reap =>
    have hpolls : ∀ i ∈ c.asked w s .reap, i.deeds = [] := by
      intro i hi
      obtain ⟨child, result, rfl⟩ := (c.move_perform w s .reap).polls_of_reap i hi
      rfl
    rw [Turn.deeds, if_neg (by simp [Turn.Ends]), List.flatMap_eq_nil_iff.mpr hpolls]
    exact deeds_pollAll w s c.children
  | handle request =>
    by_cases hp : c.phase = .terminated
    · simp [perform, asked, Turn.deeds, handle_terminated _ _ _ hp, hp, Action.isDeed]
    · replace hp := Phase.ne_terminated_iff.mp hp
      by_cases hr : request = .shutdown
      · subst hr
        simp [perform, asked, Turn.deeds, handle_shutdown _ _ _ hp, hp, Action.isDeed,
          deeds_release, Turn.Ends]
      · simp [perform, asked, Turn.deeds, handle_reload _ _ _ hp hr, hr, Action.isDeed,
          deeds_reload, Turn.Ends]

end Coordinator

/-! ## One call -/

/-- A `Turn` with all that was done in it, and the coordinator just behind it. -/
structure Scene extends Turn where
  actions : List Action
  /-- The coordinator just behind it. -/
  after : Coordinator

namespace Scene

/-- Whatever a call stops, it stops for a reason that comes first. -/
structure Orderly (x : Scene) : Prop where
  /-- The accept loops are told to stop and the listener is given up in a shutdown, or in a
  retirement when a launch has succeeded and its child is recorded. -/
  stops : ∀ before a after, x.actions = before ++ a :: after → a.Stops →
    x.Ends ∨ x.call = .handle .reloadRetire ∧ ∃ address l child,
      .spawn address l (.ok child) ∈ x.asked ∧ child ∈ x.after.children ∧
        [.spawnSucceeded child.pid, .recorded child.pid].Sublist before
  /-- The surroundings are asked in that order, too. -/
  closes : ∀ before l result after, x.asked = before ++ .close l result :: after →
    x.Ends ∨ x.call = .handle .reloadRetire ∧ ∃ address child, .spawn address l (.ok child) ∈ before
  /-- Nothing stops in silence. -/
  keeps : (∀ a ∈ x.actions, ¬ a.Stops) →
    x.after.stopped = x.before.stopped ∧ x.after.listener = x.before.listener ∧
      ∀ l result, .close l result ∉ x.asked

variable {x : Scene}

/-- What stands in front of a stop `a` begins with all that is `quiet`. -/
theorem exists_append_of_stops (quiet : List Action) {rest before after : List Action} {a : Action}
    (h : quiet ++ rest = before ++ a :: after) (hquiet : ∀ b ∈ quiet, ¬ b.Stops) (ha : a.Stops) :
    ∃ between, before = quiet ++ between := by
  rcases List.append_eq_append_iff.mp h with ⟨between, hb, -⟩ | ⟨more, hq, hr⟩
  · exact ⟨between, hb⟩
  · cases more with
    | nil => exact ⟨[], by simpa using hq.symm⟩
    | cons b more =>
      obtain ⟨rfl, -⟩ := List.cons.inj hr
      exact (hquiet a (by simp [hq]) ha).elim

/-- A stop `a` is one of the deeds, and the deeds in front of it are in front of it. -/
theorem deeds_split {before after : List Action} {a : Action}
    (h : x.actions = before ++ a :: after) (ha : a.Stops) :
    x.actions.filter Action.isDeed =
      before.filter Action.isDeed ++ a :: after.filter Action.isDeed := by
  rw [h, List.filter_append, List.filter_cons_of_pos ha.isDeed]

theorem deeds_eq_nil_of_polls {asked : List Invocation}
    (h : ∀ i ∈ asked, ∃ child result, i = .poll child result) :
    asked.flatMap Invocation.deeds = [] := by
  refine List.flatMap_eq_nil_iff.mpr fun i hi => ?_
  obtain ⟨child, result, rfl⟩ := h i hi
  rfl

/-- **Step.** A scene is `Orderly` if it is a `Move` and its deeds are those of its requests. -/
theorem orderly_of_move (hm : x.before.Move x.call x.asked x.after)
    (hd : x.actions.filter Action.isDeed = x.toTurn.deeds) : x.Orderly := by
  have hmem : ∀ a ∈ x.toTurn.deeds, a ∈ x.actions := fun a ha =>
    (List.mem_filter.mp (hd ▸ ha)).1
  obtain ⟨⟨k, c, asked⟩, actions, c'⟩ := x
  simp only at hm hd hmem
  refine ⟨fun before a after hsplit ha => ?_, fun before l result after hsplit => ?_, fun hno => ?_⟩
  -- Only a retirement stops anything without an end, and its requests put the launch and the record
  -- in front.
  · by_cases hends : Turn.Ends ⟨k, c, asked⟩
    · exact .inl hends
    · have hdeeds := (deeds_split hsplit ha).symm.trans hd
      simp only [Turn.deeds, hends, false_and, if_false] at hdeeds
      have hin : a ∈ asked.flatMap Invocation.deeds := by
        rw [← hdeeds]
        simp
      cases hm with
      | @retired l child result hp hl =>
        obtain ⟨between, hb⟩ := exists_append_of_stops [.spawnTried c.address,
          .spawnSucceeded child.pid, .recorded child.pid] hdeeds.symm (by simp [Action.Stops]) ha
        have hsub : [.spawnSucceeded child.pid, .recorded child.pid].Sublist
            (before.filter Action.isDeed) := by
          rw [hb]
          exact .cons _ (List.sublist_append_left _ _)
        exact .inr ⟨rfl, c.address, l, child, List.mem_cons_self, by simp,
          hsub.trans List.filter_sublist⟩
      | reaped hpoll => simp [deeds_eq_nil_of_polls hpoll] at hin
      | ended | endedLate => exact (hends rfl).elim
      | ignored | nothing => simp at hin
      | failed | joined =>
        simp only [List.flatMap_singleton, Invocation.deeds, List.mem_cons, List.not_mem_nil,
          or_false] at hin
        rcases hin with rfl | rfl | rfl <;> exact ha.elim
  -- The same for the requests themselves, which every `Move` says in order.
  · replace hsplit : asked = before ++ .close l result :: after := hsplit
    have hin : .close l result ∈ asked := by
      rw [hsplit]
      simp
    cases hm with
    | @retired l' child result' hp hl =>
      have hl' : l = l' ∧ result = result' := by simpa using hin
      cases before with
      | nil => cases hsplit
      | cons i before =>
        obtain ⟨rfl, -⟩ := List.cons.inj hsplit
        exact .inr ⟨rfl, c.address, child, hl'.1 ▸ List.mem_cons_self⟩
    | reaped hpoll =>
      obtain ⟨child, answer, h⟩ := hpoll _ hin
      cases h
    | ended | endedLate => exact .inl rfl
    | ignored | nothing | failed | joined => simp at hin
  · cases hm with
    -- A move that changes listener or token is told by one of its deeds.
    | retired | ended | endedLate =>
      exact (hno .cancelled
        (hmem _ (by simp_all [Turn.deeds, Turn.Ends, Invocation.deeds])) trivial).elim
    | reaped hpoll =>
      refine ⟨rfl, rfl, fun l result hi => ?_⟩
      obtain ⟨child, answer, h⟩ := hpoll _ hi
      cases h
    | ignored | nothing | failed | joined => simp

end Scene

/-! ## Whole runs -/

namespace Coordinator

variable {σ : Type} (w : Surroundings σ)

/-- What happens in the call `k`. -/
def scene (c : Coordinator) (s : σ) (k : Call) : Scene :=
  ⟨⟨k, c, c.asked w s k⟩, (c.perform w s k).actions, (c.perform w s k).coordinator⟩

/-- What happens in some calls, one after the other. -/
def scenes (c : Coordinator) (s : σ) : List Call → List Scene
  | [] => []
  | k :: ks =>
    let t := c.perform w s k
    c.scene w s k :: scenes t.coordinator t.state ks

theorem orderly_scene (c : Coordinator) (s : σ) (k : Call) : (c.scene w s k).Orderly :=
  Scene.orderly_of_move (c.move_perform w s k) (c.deeds_perform w s k)

/-- **Run.** Every call of a run is `Orderly`. -/
theorem orderly_scenes (c : Coordinator) (s : σ) (calls : List Call) :
    ∀ x ∈ c.scenes w s calls, x.Orderly := by
  induction calls generalizing c s with
  | nil => simp [scenes]
  | cons k calls ih =>
    intro x hx
    rcases List.mem_cons.mp hx with rfl | hx
    · exact c.orderly_scene w s k
    · exact ih _ _ x hx

theorem turns_scenes (h : History σ) (calls : List Call) :
    (h.after w calls).turns =
      h.turns ++ (h.coordinator.scenes w h.state calls).map Scene.toTurn := by
  induction calls generalizing h with
  | nil => simp [History.after, scenes]
  | cons k calls ih =>
    rw [History.after_cons, ih]
    simp [History.next, scenes, scene]

theorem deeds_scenes (c : Coordinator) (s : σ) (calls : List Call) :
    (c.scenes w s calls).flatMap (·.actions.filter Action.isDeed) =
      ((History.start c s).after w calls).turns.flatMap Turn.deeds := by
  rw [turns_scenes]
  simp only [History.start, List.nil_append]
  induction calls generalizing c s with
  | nil => rfl
  | cons k calls ih =>
    simp only [scenes, List.flatMap_cons, List.map_cons, ih]
    congr 1
    exact c.deeds_perform w s k

end Coordinator

end Handoff
