import Handoff.Proofs.Coordinator.Course
import Handoff.Proofs.Coordinator.Reload

/-!
# The children of a coordinator

Reloads launch children, and at any time exited ones are forgotten. Two children can have the same
number, so what became of a child is told from its place among the launches.

* `Fate`, `Fate.settle`, `Turn.fates`: the launched children, and what the polls tell of them.
* `Accounted`: what fates, reports and the children of a coordinator have to do with each other.
* `Accounted.scene`, `Accounted.course`: every call keeps it, and so does every course.
* `Scene.Reaped`: all that a round of polls does.
* `Coordinator.children_accounted`: what that means for a coordinator from its start.
-/

namespace Handoff

/-- A child that was launched, and how it ended, as far as that was collected. -/
structure Fate where
  pid : Nat
  /-- Whether its status can be collected. -/
  tracked : Bool
  exit : Option ExitStatus
  deriving DecidableEq, Repr

namespace Invocation

/-- The child that was polled, as its handle knows it. -/
def mark? (i : Invocation) : Option (Nat × Bool) := i.polled?.map Child.mark

/-- The end that a poll found. -/
def exited? : Invocation → Option (Nat × ExitStatus)
  | .poll child (.ok (some status)) => some (child.pid, status)
  | _ => none

def asksStatus (i : Invocation) : Bool := i.polled?.isSome

end Invocation

def Event.exited? : Event → Option (Nat × ExitStatus)
  | .childExited pid status => some (pid, status)
  | _ => none

namespace Fate

def ofChild (child : Child) : Fate := ⟨child.pid, child.tracked, none⟩

def mark (f : Fate) : Nat × Bool := (f.pid, f.tracked)

/-- The end that was collected. -/
def exited? (f : Fate) : Option (Nat × ExitStatus) := f.exit.map (f.pid, ·)

/-- The fates behind a round of `polls`, which go in order to the children without an `exit`. -/
def settle : List Fate → List Invocation → List Fate
  | [], _ => []
  | f :: fs, polls =>
    match f.exit, polls with
    | some _, polls => f :: settle fs polls
    | none, [] => f :: settle fs []
    | none, i :: polls => { f with exit := i.exit? } :: settle fs polls

/-- The children without an `exit`. -/
def left (fs : List Fate) : List Fate := fs.filter (·.exit.isNone)

variable {fs : List Fate} {polls : List Invocation}

theorem left_append (fs gs : List Fate) : left (fs ++ gs) = left fs ++ left gs :=
  List.filter_append ..

theorem left_ofChild (cs : List Child) : left (cs.map ofChild) = cs.map ofChild := by
  simp [left, ofChild]

theorem settle_nil (fs : List Fate) : settle fs [] = fs := by
  induction fs with
  | nil => rfl
  | cons f fs ih => cases hf : f.exit <;> simp [settle, hf, ih]

/-- `settle` neither launches nor reorders. -/
theorem map_mark_settle (fs : List Fate) (polls : List Invocation) :
    (settle fs polls).map mark = fs.map mark := by
  fun_induction settle fs polls with
  | case1 => rfl
  | case2 f fs status polls hf ih => simp [ih]
  | case3 f fs hf ih => simp [ih]
  | case4 f fs i polls hf ih => simp [ih, mark]

/-- `polls` ask just the children of `fs` without an `exit`, in order. -/
def Asks (fs : List Fate) (polls : List Invocation) : Prop :=
  polls.map Invocation.mark? = (left fs).map fun f => some f.mark

theorem Asks.cons {f : Fate} {i : Invocation} (h : Asks (f :: fs) (i :: polls))
    (hf : f.exit = none) : i.mark? = some f.mark ∧ Asks fs polls := by
  simpa [Asks, left, hf] using h

theorem Asks.skip {f : Fate} {status : ExitStatus} (h : Asks (f :: fs) polls)
    (hf : f.exit = some status) : Asks fs polls := by
  simpa [Asks, left, hf] using h

/-- The children are `left` of whom `polls` collect nothing, in the same order. -/
theorem map_mark_left_settle (h : Asks fs polls) :
    (left (settle fs polls)).map mark =
      (polls.filter (·.exit?.isNone)).filterMap Invocation.mark? := by
  fun_induction settle fs polls with
  | case1 polls =>
    have hnil : polls = [] := by simpa [Asks, left] using h
    simp [hnil, left]
  | case2 f fs status polls hf ih =>
    rw [← ih (h.skip hf)]
    simp [left, hf]
  | case3 f fs hf ih => simp [Asks, left, hf] at h
  | case4 f fs i polls hf ih =>
    obtain ⟨hi, h⟩ := h.cons hf
    have hrest := ih h
    cases he : i.exit? with
    | some status => simpa [left, he] using hrest
    | none => simpa [left, he, hi, mark] using hrest

theorem exited?_of_mark {i : Invocation} {f : Fate} (h : i.mark? = some f.mark) :
    i.exited? = i.exit?.map (f.pid, ·) := by
  rcases i with _ | _ | ⟨child, _ | _ | status⟩ <;>
    simp_all [Invocation.mark?, Invocation.polled?, Invocation.exited?, Invocation.exit?,
      Child.mark, mark]

/-- The ends that `polls` find are added to those known before. -/
theorem exited_settle (h : Asks fs polls) :
    ((settle fs polls).filterMap exited?).Perm
      (fs.filterMap exited? ++ polls.filterMap Invocation.exited?) := by
  -- A child with an `exit` passes the polls on, and one without takes the next poll; `Asks` rules
  -- out that the polls run out (`case3`).
  fun_induction settle fs polls with
  | case1 polls =>
    have hnil : polls = [] := by simpa [Asks, left] using h
    simp [hnil]
  | case2 f fs status polls hf ih =>
    have hend : f.exited? = some (f.pid, status) := by simp [exited?, hf]
    simpa [hend] using ih (h.skip hf)
  | case3 f fs hf ih => simp [Asks, left, hf] at h
  | case4 f fs i polls hf ih =>
    obtain ⟨hi, h⟩ := h.cons hf
    have hrest := ih h
    have hold : f.exited? = none := by simp [exited?, hf]
    have hnew : exited? { f with exit := i.exit? } = i.exited? := (exited?_of_mark hi).symm
    simp only [List.filterMap_cons, hold, hnew]
    cases i.exited? with
    | none => exact hrest
    | some e => exact (hrest.cons e).trans List.perm_middle.symm

/-- Whoever is known by its number alone (`tracked = false`) has no status. -/
def Known (fs : List Fate) : Prop := ∀ f ∈ fs, f.tracked = false → f.exit = none

theorem Known.settle (hk : Known fs) (h : Asks fs polls)
    (hp : ∀ i ∈ polls, ∀ pid, i.mark? = some (pid, false) → i.exit? = none) :
    Known (settle fs polls) := by
  fun_induction Fate.settle fs polls with
  | case1 => exact hk
  | case2 f fs status polls hf ih =>
    obtain ⟨hhead, hk⟩ := List.forall_mem_cons.mp hk
    exact List.forall_mem_cons.mpr ⟨hhead, ih hk (h.skip hf) hp⟩
  | case3 f fs hf ih => simp [Asks, left, hf] at h
  | case4 f fs i polls hf ih =>
    obtain ⟨-, hk⟩ := List.forall_mem_cons.mp hk
    obtain ⟨hhead, hp⟩ := List.forall_mem_cons.mp hp
    obtain ⟨hi, h⟩ := h.cons hf
    refine List.forall_mem_cons.mpr ⟨fun ht => hhead f.pid ?_, ih hk h hp⟩
    rw [hi, mark]
    exact congrArg (fun b => some (f.pid, b)) ht

end Fate

/-! ## One call -/

/-- The fates behind a call: those of `fs` that it polls are settled, and its launches come behind
them. -/
def Turn.fates (fs : List Fate) (t : Turn) : List Fate :=
  Fate.settle fs (t.asked.filter Invocation.asksStatus) ++ t.launched.map Fate.ofChild

/-- All that a round of polls does. -/
structure Scene.Reaped (x : Scene) : Prop where
  /-- Every child that is left is asked for its status once, in order. -/
  polled : x.asked.map Invocation.polled? = x.before.children.map some
  /-- Of a child that is known by its number alone no status is collected. -/
  untracked : ∀ i ∈ x.asked, ∀ pid, i.mark? = some (pid, false) → i.exit? = none
  /-- The children stay of whom no status is collected, in order. -/
  kept : x.after.children.map Child.mark =
    (x.asked.filter (·.exit?.isNone)).filterMap Invocation.mark?
  /-- What is collected is reported, and so is what fails. -/
  actions : x.actions = x.asked.flatMap Invocation.seen
  rest : x.after = { x.before with children := x.after.children }

/-- The fates `fs`, the ends `reported` so far and the children `launched` so far belong to the
coordinator `c`. -/
structure Accounted (fs : List Fate) (reported : List (Nat × ExitStatus)) (launched : List Child)
    (c : Coordinator) : Prop where
  /-- Every launch has its fate, in order. -/
  launched_eq : fs.map Fate.mark = launched.map Child.mark
  /-- The children are those that have no status, in order. -/
  children_eq : c.children.map Child.mark = (Fate.left fs).map Fate.mark
  /-- Every end is reported once. -/
  reported_perm : reported.Perm (fs.filterMap Fate.exited?)
  /-- Whoever is known by its number alone has no status. -/
  known : Fate.Known fs

namespace Coordinator

variable {σ : Type} (w : Surroundings σ)
  (ask : σ → Child → Except IoError (Option ExitStatus) × Option ExitStatus × σ)
  (c : Coordinator) (s : σ)

theorem reaped_scene : (c.scene (w.byHandle ask) s .reap).Reaped := by
  have hasked := c.asked_reap (w.byHandle ask) s
  constructor
  · simp only [scene, hasked]
    exact polled_polls ..
  · simp only [scene, hasked]
    intro i hi pid hmark
    obtain ⟨child, hchild, heq⟩ := Option.map_eq_some_iff.mp hmark
    exact exit?_of_untracked w ask s c.children i hi child hchild (congrArg Prod.snd heq)
  · simp only [scene, hasked]
    exact kept_pollAll ..
  · simp only [scene, hasked]
    exact actions_pollAll ..
  · rfl

/-- A handled `request` polls nobody, and its launches come behind `c.children`. -/
theorem Move.children_eq {request : Signal} {asked : List Invocation} {c c' : Coordinator}
    (hm : c.Move (.handle request) asked c') :
    asked.filter Invocation.asksStatus = [] ∧
      c'.children = c.children ++ asked.filterMap Invocation.launched? := by
  cases hm <;> simp [Invocation.asksStatus, Invocation.polled?, Invocation.launched?]

/-- No end is reported when `request` is handled. -/
theorem exited_account {request : Signal} (asked : List Invocation) (name : String) :
    (Turn.account name ⟨.handle request, c, asked⟩).filterMap Event.exited? = [] := by
  have htold : (asked.flatMap (Invocation.told request name)).filterMap Event.exited? = [] := by
    rw [List.filterMap_flatMap, List.flatMap_eq_nil_iff]
    intro i _
    rcases i with ⟨_, _, _ | _⟩ | ⟨_, _ | _⟩ | _ <;> rfl
  have hmissing : (c.missing request).filterMap Event.exited? = [] := by
    unfold missing
    split
    · rfl
    · split <;> rfl
  unfold Turn.account
  cases hp : c.phase with
  | terminated => simp [Event.exited?]
  | serving => simp [Event.exited?, htold, hmissing, List.filterMap_cons]

/-- The ends that the polls in `asked` report are those that they find. -/
theorem exited_seen (asked : List Invocation) :
    ((asked.flatMap Invocation.seen).filterMap Action.event?).filterMap Event.exited? =
      asked.filterMap Invocation.exited? := by
  induction asked with
  | nil => rfl
  | cons i asked ih =>
    rcases i with _ | _ | ⟨child, _ | _ | status⟩ <;>
      simp [Invocation.seen, Invocation.exited?, Event.exited?, List.filterMap_cons, Action.event?,
        ih]

end Coordinator

namespace Scene.Reaped

variable {x : Scene}

theorem marks (hx : x.Reaped) :
    x.asked.map Invocation.mark? = x.before.children.map fun child => some child.mark := by
  have h := congrArg (List.map (Option.map Child.mark)) hx.polled
  rwa [List.map_map, List.map_map] at h

/-- A round of polls does nothing but polls, so `x.asked` is all of them. -/
theorem asksStatus (hx : x.Reaped) : x.asked.filter Invocation.asksStatus = x.asked := by
  refine List.filter_eq_self.mpr fun i hi => ?_
  have hmem : i.polled? ∈ x.before.children.map some := hx.polled ▸ List.mem_map_of_mem hi
  obtain ⟨child, -, hchild⟩ := List.mem_map.mp hmem
  rw [Invocation.asksStatus, ← hchild]
  rfl

theorem launched_eq_nil (hx : x.Reaped) : x.toTurn.launched = [] := by
  refine List.filterMap_eq_nil_iff.mpr fun i hi => ?_
  have hpoll : i ∈ x.asked.filter Invocation.asksStatus := hx.asksStatus.symm ▸ hi
  cases i with
  | poll => rfl
  | spawn | close => simp [Invocation.asksStatus, Invocation.polled?] at hpoll

end Scene.Reaped

namespace Accounted

variable {fs : List Fate} {reported : List (Nat × ExitStatus)} {launched : List Child}
  {c : Coordinator}

theorem start (address : String) (l : Listener) : Accounted [] [] [] (.ofListener address l) :=
  ⟨rfl, rfl, .nil, fun _ h => by cases h⟩

/-- `Accounted` is kept by a call that polls nobody, reports no end and appends what it launches. -/
theorem handle {x : Scene} (ha : Accounted fs reported launched x.before)
    (hpolls : x.asked.filter Invocation.asksStatus = [])
    (hchildren : x.after.children = x.before.children ++ x.toTurn.launched)
    (hquiet : x.own.filterMap Event.exited? = []) :
    Accounted (x.toTurn.fates fs) (reported ++ x.own.filterMap Event.exited?)
      (launched ++ x.toTurn.launched) x.after := by
  have hfresh : (x.toTurn.launched.map Fate.ofChild).filterMap Fate.exited? = [] := by
    simp [Fate.exited?, Fate.ofChild]
  have hmarks : (x.toTurn.launched.map Fate.ofChild).map Fate.mark =
      x.toTurn.launched.map Child.mark := by
    simp [Fate.mark, Fate.ofChild, Child.mark]
  rw [Turn.fates, hpolls, Fate.settle_nil, hquiet, List.append_nil]
  constructor
  · rw [List.map_append, List.map_append, ha.launched_eq, hmarks]
  · rw [hchildren, List.map_append, Fate.left_append, Fate.left_ofChild, List.map_append,
      ha.children_eq, hmarks]
  · rw [List.filterMap_append, hfresh, List.append_nil]
    exact ha.reported_perm
  · intro f hf ht
    rcases List.mem_append.mp hf with hf | hf
    · exact ha.known f hf ht
    · obtain ⟨child, -, rfl⟩ := List.mem_map.mp hf
      rfl

/-- And by a round of polls (`x.Reaped`), which settles the fates that were open. -/
theorem reap {x : Scene} (ha : Accounted fs reported launched x.before) (hx : x.Reaped)
    (hown : x.own.filterMap Event.exited? = x.asked.filterMap Invocation.exited?) :
    Accounted (x.toTurn.fates fs) (reported ++ x.own.filterMap Event.exited?)
      (launched ++ x.toTurn.launched) x.after := by
  have hasks : Fate.Asks fs x.asked := by
    have h := congrArg (List.map some) ha.children_eq
    rw [List.map_map, List.map_map] at h
    exact hx.marks.trans h
  rw [Turn.fates, hx.asksStatus, hx.launched_eq_nil, hown, List.map_nil, List.append_nil,
    List.append_nil]
  constructor
  · rw [Fate.map_mark_settle, ha.launched_eq]
  · rw [Fate.map_mark_left_settle hasks, hx.kept]
  · exact (ha.reported_perm.append_right _).trans (Fate.exited_settle hasks).symm
  · exact ha.known.settle hasks hx.untracked

variable {σ : Type} (w : Surroundings σ)
  (ask : σ → Child → Except IoError (Option ExitStatus) × Option ExitStatus × σ)

/-- **Step.** Every call `k` keeps the accounts. -/
theorem scene (ha : Accounted fs reported launched c) (s : σ) (k : Call) :
    let x := c.scene (w.byHandle ask) s k
    Accounted (x.toTurn.fates fs) (reported ++ x.own.filterMap Event.exited?)
      (launched ++ x.toTurn.launched) x.after := by
  intro x
  obtain ⟨name, hown⟩ := c.own_scene w s ask k
  cases k with
  | handle request =>
    obtain ⟨hpolls, hchildren⟩ :=
      (c.move_perform (w.byHandle ask) s (.handle request)).children_eq
    refine ha.handle hpolls hchildren ?_
    rw [hown]
    exact c.exited_account _ name
  | reap =>
    refine ha.reap (c.reaped_scene w ask s) ?_
    rw [hown]
    exact Coordinator.exited_seen _

end Accounted

/-! ## Whole courses -/

/-- What became of the children that were launched in the calls `xs`, in the order of their
launch. -/
def Scene.fates (xs : List Scene) : List Fate := xs.foldl (fun fs x => x.toTurn.fates fs) []

/-- **Course.** And so does every sequence of calls, by induction on `steps`. -/
theorem Accounted.course {σ : Type} (w : Surroundings σ)
    (ask : σ → Child → Except IoError (Option ExitStatus) × Option ExitStatus × σ)
    {fs : List Fate} {reported : List (Nat × ExitStatus)} {launched : List Child} {c : Coordinator}
    (ha : Accounted fs reported launched c) (steps : List (σ × Call)) :
    let xs := c.course (w.byHandle ask) steps
    Accounted (xs.foldl (fun fs x => x.toTurn.fates fs) fs)
      (reported ++ (xs.flatMap Scene.own).filterMap Event.exited?)
      (launched ++ xs.flatMap (·.toTurn.launched)) (c.afterCourse (w.byHandle ask) steps) := by
  induction steps generalizing fs reported launched c with
  | nil => simpa [Coordinator.course, Coordinator.afterCourse] using ha
  | cons step steps ih =>
    obtain ⟨s, k⟩ := step
    simp only [Coordinator.course, List.foldl_cons, List.flatMap_cons, List.filterMap_append,
      ← List.append_assoc]
    exact ih (ha.scene w ask s k)

/-! ## The children of a process -/

namespace System

variable {s : System} {child : Child}

theorem status_of_spawned {address : String} {l : Listener}
    (h : (s.spawnReplacement address l).result = .ok child) : child.status = none := by
  unfold spawnReplacement at h
  split at h
  · cases h
  · simp only at h
    unfold spawnExported at h
    split at h
    · cases h
    · simp only at h
      split at h
      · cases h
      · rename_i hlaunch
        cases h
        obtain ⟨p, -, rfl, -⟩ := SpawnPlan.of_launch hlaunch
        rfl

/-- No process with the number of `child` has ended. -/
def Runs (s : System) (child : Child) : Prop :=
  ∀ p ∈ s.others, p.pid = child.pid → p.status = none

/-- The status of a child that `Runs` is not collected, and the poll changes nothing. -/
theorem Runs.poll_eq (hr : s.Runs child) (hs : child.status = none) :
    ∃ answer, (∀ status, answer ≠ .ok (some status)) ∧ child.poll s = (answer, child, s) := by
  obtain ⟨pid, tracked, status⟩ := child
  cases hs
  cases tracked with
  | false => exact ⟨.ok none, by simp, rfl⟩
  | true =>
    simp only [Child.poll, collect, Bool.not_true, Bool.false_eq_true, if_false]
    cases hf : s.others.find? (·.pid == pid) with
    | none => exact ⟨.error .noChild, by simp, rfl⟩
    | some p =>
      have hpid : p.pid = pid := by simpa using List.find?_some hf
      have hnone : p.status = none := hr p (List.mem_of_find?_eq_some hf) hpid
      refine ⟨.ok none, by simp, ?_⟩
      simp [hnone]

/-- A poll of `child` takes at most one process out of `s.others`. -/
theorem others_poll (child : Child) (s : System) :
    ∀ p ∈ (child.poll s).2.2.others, p ∈ s.others := by
  intro p hp
  unfold Child.poll collect at hp
  split at hp
  · exact hp
  split at hp
  · exact hp
  split at hp
  · exact hp
  · rename_i h
    split at h
    · cases h
    split at h
    · cases h
      exact hp
    · cases h
      exact (List.mem_filter.mp hp).1

/-- A child keeps its place in a round of polls while it `Runs`. -/
theorem Runs.mem_pollAll {cs : List Child} (hr : s.Runs child) (hs : child.status = none)
    (hmem : child ∈ cs) : child ∈ (Coordinator.pollAll surroundings s cs).1 := by
  induction cs generalizing s with
  | nil => cases hmem
  | cons other cs ih =>
    rcases List.mem_cons.mp hmem with rfl | hmem
    · obtain ⟨answer, hno, hpoll⟩ := hr.poll_eq hs
      have hasked : surroundings.poll s child = (answer, child, s) := hpoll
      rcases answer with _ | _ | status
      · simp [Coordinator.pollAll, hasked]
      · simp [Coordinator.pollAll, hasked]
      · exact (hno status rfl).elim
    -- The poll of another child takes away no process with the number of this one that runs.
    · have hrest := ih (s := (other.poll s).2.2)
        (fun p hp => hr p (others_poll other s p hp)) hmem
      rcases hpoll : surroundings.poll s other with ⟨_ | _ | status, other', s'⟩ <;>
        have hs' : (other.poll s).2.2 = s' := congrArg (·.2.2) hpoll <;>
        rw [hs'] at hrest <;>
        simp [Coordinator.pollAll, hpoll, hrest]

/-- A `child` has a status only when it is collected. -/
theorem status_poll (hs : child.status = none)
    (hno : ∀ status, (child.poll s).1 ≠ .ok (some status)) :
    (child.poll s).2.1.status = none := by
  obtain ⟨pid, tracked, status⟩ := child
  cases hs
  cases tracked with
  | false => rfl
  | true =>
    simp only [Child.poll, Bool.not_true, Bool.false_eq_true, if_false] at hno ⊢
    rcases hc : s.collect pid with e | ⟨_ | status, s'⟩
    · rfl
    · rfl
    · simp [hc] at hno

/-- Whoever of `cs` is kept by a round of polls has no status. -/
theorem status_pollAll (s : System) {cs : List Child} (h : ∀ child ∈ cs, child.status = none) :
    ∀ child ∈ (Coordinator.pollAll surroundings s cs).1, child.status = none := by
  induction cs generalizing s with
  | nil => simp [Coordinator.pollAll]
  | cons child cs ih =>
    obtain ⟨hhead, h⟩ := List.forall_mem_cons.mp h
    have hrest := ih (child.poll s).2.2 h
    have hkept := status_poll (s := s) hhead
    rcases hpoll : child.poll s with ⟨_ | _ | status, child', s'⟩ <;>
      have hasked : surroundings.poll s child = _ := hpoll <;>
      rw [hpoll] at hrest hkept <;>
      simp only [Coordinator.pollAll, hasked]
    · exact List.forall_mem_cons.mpr ⟨hkept (by simp), hrest⟩
    · exact List.forall_mem_cons.mpr ⟨hkept (by simp), hrest⟩
    · exact hrest

end System

/-- A handled `request` appends the child that `w.spawn` launches, if there is one. -/
theorem Coordinator.children_handle {σ : Type} (w : Surroundings σ) (c : Coordinator) (s : σ)
    (request : Signal) :
    (c.handle w s request).coordinator.children = c.children ∨
      ∃ l child, (w.spawn s c.address l).result = .ok child ∧
        (c.handle w s request).coordinator.children = c.children ++ [child] := by
  cases hp : c.phase with
  | terminated => simp [handle_terminated _ _ _ hp]
  | serving =>
    by_cases hr : request = .shutdown
    · subst hr
      simp [handle_shutdown _ _ _ hp, release_coordinator]
    · simp only [handle_reload _ _ _ hp hr, reload]
      cases hl : c.listener with
      | none => simp
      | some l =>
        cases ho : (w.spawn s c.address l).result with
        | error e => simp [ho]
        | ok child =>
          refine .inr ⟨l, child, ho, ?_⟩
          cases request <;> simp_all [Step.andThen, release_coordinator]

namespace Coordinator

/-- The `children` of a process have no status, whatever it is called for. -/
theorem status_perform {c : Coordinator} (h : ∀ child ∈ c.children, child.status = none)
    (s : System) (k : Call) :
    ∀ child ∈ (c.perform System.surroundings s k).coordinator.children, child.status = none := by
  cases k with
  | reap => exact System.status_pollAll s h
  | handle request =>
    rcases c.children_handle System.surroundings s request with heq | ⟨l, fresh, hok, heq⟩
    · simpa only [perform, heq] using h
    · intro child hmem
      simp only [perform, heq, List.mem_append, List.mem_singleton] at hmem
      rcases hmem with hmem | rfl
      · exact h child hmem
      · exact System.status_of_spawned hok

theorem status_afterCourse {c : Coordinator} (h : ∀ child ∈ c.children, child.status = none)
    (steps : List (System × Call)) :
    ∀ child ∈ (c.afterCourse System.surroundings steps).children, child.status = none := by
  induction steps generalizing c with
  | nil => exact h
  | cons step steps ih => exact ih (status_perform h step.1 step.2)

variable {σ : Type}

/-- **Children.** A coordinator is called in any way, while its children come and go:

* every child that was `launched` has its `Fate`, and the coordinator has just those, in the order
  of their launch, whose status was not collected;
* what it reports of exits are the statuses that were collected, each once;
* of a child that is known by its number alone no status is collected;
* a round of polls is `Reaped`: it asks every child once, forgets just those whose status it
  collects, reports each of them, and changes nothing else;
* in a process, a child is kept while it `Runs`. -/
theorem children_accounted (w : Surroundings σ)
    (ask : σ → Child → Except IoError (Option ExitStatus) × Option ExitStatus × σ)
    (address : String) (l : Listener) (steps : List (σ × Call)) :
    let xs := (ofListener address l).course (w.byHandle ask) steps
    let c := (ofListener address l).afterCourse (w.byHandle ask) steps
    (Scene.fates xs).map Fate.mark = (xs.flatMap (·.toTurn.launched)).map Child.mark ∧
    c.children.map Child.mark =
      ((Scene.fates xs).filter (·.exit.isNone)).map Fate.mark ∧
    ((xs.flatMap Scene.own).filterMap Event.exited?).Perm
      ((Scene.fates xs).filterMap Fate.exited?) ∧
    (∀ f ∈ Scene.fates xs, f.tracked = false → f.exit = none) ∧
    (∀ x ∈ xs, x.call = .reap → x.Reaped) ∧
    ∀ (steps : List (System × Call)) (s : System),
      let c := (ofListener address l).afterCourse System.surroundings steps
      ∀ child ∈ c.children, s.Runs child →
        child ∈ (c.reap System.surroundings s).coordinator.children := by
  intro xs c
  have ha := (Accounted.start address l).course w ask steps
  refine ⟨ha.launched_eq, ha.children_eq, ha.reported_perm, ha.known, ?_, ?_⟩
  · refine forall_course _ (fun c s k hk => ?_) _ steps
    cases hk
    exact c.reaped_scene w ask s
  · intro steps s c child hmem hruns
    have hnone := status_afterCourse (by simp [ofListener]) steps child hmem
    exact hruns.mem_pollAll hnone hmem

/-- Surroundings with a state `(child, answers)`: every launch starts `child`, and every listener
can be closed. -/
def answering : Surroundings (Child × List (Except IoError (Option ExitStatus))) where
  spawn s _ _ := ⟨.ok s.1, s, []⟩
  close s _ := (.ok (), s)
  name _ _ := ""
  poll s c := (.ok none, c, s)

/-- Polls take one of the `answers` each, whichever child is asked, and no status is kept with
it. -/
def nextAnswer (s : Child × List (Except IoError (Option ExitStatus))) (_ : Child) :
    Except IoError (Option ExitStatus) × Option ExitStatus ×
      (Child × List (Except IoError (Option ExitStatus))) :=
  (s.2.headD (.ok none), none, (s.1, s.2.tail))

/-- Two children have the number 7, and a third is known by its number 9 alone. Then there is a
round of polls, of which the first fails. -/
def twins : List ((Child × List (Except IoError (Option ExitStatus))) × Call) := [
  ((⟨7, true, none⟩, []), .handle .reloadCoexist),
  ((⟨7, true, none⟩, []), .handle .reloadCoexist),
  ((.untracked 9, []), .handle .reloadCoexist),
  ((.untracked 0, [.error .noChild, .ok (some (.code 1))]), .reap)]

/-- A process in which the first replacement that it launched, number 2, runs. -/
def accompanied : System :=
  { running (some "/app") with others := [⟨2, .empty, .empty, [], none, [], none⟩] }

/-- Of the `twins`, the second has its exit collected, and the other two children stay. A process
keeps its child while that runs. -/
theorem children_accounted_twins :
    let xs := (ofListener "/s" ⟨.unix, 3⟩).course (answering.byHandle nextAnswer) twins
    let c := (ofListener "/s" ⟨.unix, 3⟩).afterCourse (answering.byHandle nextAnswer) twins
    let served := (ofListener "/s" ⟨.unix, 3⟩).afterCourse System.surroundings
      [(running (some "/app"), .handle .reloadCoexist)]
    Scene.fates xs = [⟨7, true, none⟩, ⟨7, true, some (.code 1)⟩, ⟨9, false, none⟩] ∧
      c.children.map Child.mark = [(7, true), (9, false)] ∧
      ((xs.flatMap Scene.own).filterMap Event.exited?).Perm [(7, .code 1)] ∧
      (∃ x ∈ xs, x.call = .reap ∧ x.Reaped) ∧
      ⟨2, true, none⟩ ∈
        (served.reap System.surroundings accompanied).coordinator.children := by
  intro xs c served
  obtain ⟨-, hchildren, hreported, -, hreaped, hkept⟩ :=
    children_accounted answering nextAnswer "/s" ⟨.unix, 3⟩ twins
  have hfates : Scene.fates xs =
      [⟨7, true, none⟩, ⟨7, true, some (.code 1)⟩, ⟨9, false, none⟩] := rfl
  have hlast : xs[3] ∈ xs := List.getElem_mem _
  have hok : ((running (some "/app")).spawnReplacement "/s" ⟨.unix, 3⟩).result =
      .ok ⟨2, true, none⟩ := rfl
  have hlaunched : ⟨2, true, none⟩ ∈ served.children := by
    simp [served, afterCourse, perform, handle, ofListener, Step.andThen, reload,
      System.surroundings, hok]
  have hruns : accompanied.Runs ⟨2, true, none⟩ := by simp [System.Runs, accompanied]
  rw [hfates] at hchildren hreported
  exact ⟨hfates, hchildren, hreported, ⟨_, hlast, rfl, hreaped _ hlast rfl⟩,
    hkept [(running (some "/app"), .handle .reloadCoexist)] accompanied _ hlaunched hruns⟩

end Coordinator

end Handoff
