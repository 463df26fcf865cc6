import Handoff.Drain.Tasks
import Handoff.Proofs.Drain.Schedule

/-!
# No wake-up is lost

Connections end and drains look, register and sleep in any order. Whatever the order, a drain that
sleeps is still to be woken: a connection is live, or the last one has ended and has not woken the
drains yet. The drain has registered before it looks again, so nothing gets in between.

* `Tasks.Sound`, `Tasks.Sound.step`: what every action keeps.
* `Tasks.Overdue`: a connection ended as the last one, and its wake-up is still to come.
* `Tasks.no_lost_wakeup`: the count, and why a drain may sleep.
* `Tasks.sleeper_instant`: a drain that sleeps through an instant does what `Drain.sleep` does.
-/

namespace Handoff

/-! ## A drain on its own -/

namespace Waiter

/-- The drain after some of its actions, while there are `active` connections. -/
def goOn? (active : Nat) : Nat → Waiter → Option Waiter
  | 0, d => some d
  | n + 1, d => (d.next? active).bind (goOn? active n)

/-- Where a drain gets to on its own, while there are `active` connections. -/
def rest (active : Nat) : Waiter → Waiter
  | returned finished => returned finished
  | sleeping false => sleeping false
  | _ => if active = 0 then returned true else sleeping false

/-- A drain gets to `rest` in a few actions. -/
theorem exists_goOn?_rest (active : Nat) (d : Waiter) :
    ∃ n, d.goOn? active n = some (d.rest active) := by
  -- With no connection every look is the last one. With one, a drain that was woken goes through
  -- the whole loop once more.
  by_cases hzero : active = 0
  · cases d with
    | called | looking => exact ⟨1, by simp [goOn?, next?, rest, hzero]⟩
    | registering => exact ⟨2, by simp [goOn?, next?, rest, hzero]⟩
    | checking woken => exact ⟨1, by simp [goOn?, next?, rest, hzero]⟩
    | sleeping woken =>
      cases woken with
      | true => exact ⟨2, by simp [goOn?, next?, rest, hzero]⟩
      | false => exact ⟨0, rfl⟩
    | returned => exact ⟨0, rfl⟩
  · cases d with
    | called => exact ⟨4, by simp [goOn?, next?, rest, hzero]⟩
    | looking => exact ⟨3, by simp [goOn?, next?, rest, hzero]⟩
    | registering => exact ⟨2, by simp [goOn?, next?, rest, hzero]⟩
    | checking woken =>
      cases woken with
      | true => exact ⟨5, by simp [goOn?, next?, rest, hzero]⟩
      | false => exact ⟨1, by simp [goOn?, next?, rest, hzero]⟩
    | sleeping woken =>
      cases woken with
      | true => exact ⟨4, by simp [goOn?, next?, rest, hzero]⟩
      | false => exact ⟨0, rfl⟩
    | returned => exact ⟨0, rfl⟩

/-- A drain that has come to `sleeping false` has just seen a connection. -/
theorem active_pos_of_next? {d : Waiter} {active : Nat}
    (h : d.next? active = some (sleeping false)) : 0 < active := by
  cases d with
  | checking woken =>
    by_cases hzero : active = 0
    · simp [next?, hzero] at h
    · omega
  | sleeping woken => cases woken <;> simp [next?] at h
  | called | looking =>
    simp only [next?, Option.some.injEq] at h
    split at h <;> cases h
  | registering | returned => simp [next?] at h

theorem wake_ne_sleeping (d : Waiter) : d.wake ≠ sleeping false := by
  cases d <;> simp [wake]

end Waiter

namespace Tasks

variable {t t' : Tasks} {done actions : List Action} {a : Action} {k : Nat}

theorem run?_cons (t : Tasks) (a : Action) (actions : List Action) :
    t.run? (a :: actions) = (t.perform? a).bind (·.run? actions) := rfl

theorem run?_append (t : Tasks) (done actions : List Action) :
    t.run? (done ++ actions) = (t.run? done).bind (·.run? actions) :=
  List.foldlM_append ..

theorem run?_concat (h : run? {} done = some t) (hs : t.perform? a = some t') :
    run? {} (done ++ [a]) = some t' := by
  rw [run?_append, h, Option.bind_some, run?_cons, hs]
  rfl

def Action.isRelease : Action → Bool
  | .release _ => true
  | _ => false

/-! ## The actions, one by one -/

/-- What an action does to the tasks. -/
inductive Effect (t : Tasks) : Action → Tasks → Prop
  | guard : Effect t .guard { t with tracker := t.tracker.guard, guards := t.guards ++ [.live] }
  /-- The last connection ends. -/
  | last {k : Nat} : t.guards[k]? = some .live → t.tracker.active = 1 →
      Effect t (.release k)
        { t with tracker := t.tracker.release, guards := t.guards.set k .waking }
  /-- Another connection ends. -/
  | release {k : Nat} : t.guards[k]? = some .live → t.tracker.active ≠ 1 →
      Effect t (.release k)
        { t with tracker := t.tracker.release, guards := t.guards.set k .ended }
  | wake {k : Nat} : t.guards[k]? = some .waking →
      Effect t (.wake k)
        { t with guards := t.guards.set k .ended, drains := t.drains.map Waiter.wake }
  | call : Effect t .call { t with drains := t.drains ++ [.called] }
  | proceed {k : Nat} {d d' : Waiter} : t.drains[k]? = some d →
      d.next? t.tracker.active = some d' →
      Effect t (.proceed k) { t with drains := t.drains.set k d' }
  /-- The timeout of a drain passes. -/
  | expire {k : Nat} {woken : Bool} : t.drains[k]? = some (.sleeping woken) →
      Effect t (.expire k) { t with drains := t.drains.set k (.returned false) }

/-- `perform?` has no other effects. -/
theorem effect_of_perform? (h : t.perform? a = some t') : Effect t a t' := by
  cases a with
  | guard => cases h; exact .guard
  | call => cases h; exact .call
  | release k =>
    simp only [perform?] at h
    split at h
    · rename_i hk
      cases h
      split
      · rename_i hone; exact .last hk hone
      · rename_i hone; exact .release hk hone
    · cases h
  | wake k =>
    simp only [perform?] at h
    split at h
    · rename_i hk; cases h; exact .wake hk
    · cases h
  | proceed k =>
    obtain ⟨d', hd', rfl⟩ := Option.map_eq_some_iff.mp h
    obtain ⟨d, hd, hnext⟩ := Option.bind_eq_some_iff.mp hd'
    exact .proceed hd hnext
  | expire k =>
    obtain ⟨d', hd', rfl⟩ := Option.map_eq_some_iff.mp h
    obtain ⟨d, hd, hnext⟩ := Option.bind_eq_some_iff.mp hd'
    cases d with
    | sleeping woken => cases hnext; exact .expire hd
    | _ => cases hnext

/-- A guard that is set to `x` is one less among the live ones, if it was live, and no other one
counts. -/
theorem count_live_set {gs : List Guard} {g x : Guard} (hk : gs[k]? = some g) (hx : x ≠ .live) :
    (gs.set k x).count .live + (if g = .live then 1 else 0) = gs.count .live := by
  obtain ⟨hlt, hget⟩ := List.getElem?_eq_some_iff.mp hk
  rw [List.count_set hlt, hget]
  by_cases hlive : g = .live
  · have hpos : 0 < gs.count .live :=
      List.count_pos_iff.mpr (hlive ▸ hget ▸ List.getElem_mem hlt)
    simp [hlive, hx]
    omega
  · simp [hlive, hx]

/-- A task that is `.waking` keeps its place when another one moves on. -/
theorem waking_mem_set {gs : List Guard} {g : Guard} (hk : gs[k]? ≠ some .waking)
    (h : .waking ∈ gs) : .waking ∈ gs.set k g := by
  obtain ⟨j, hj⟩ := List.mem_iff_getElem?.mp h
  have hne : k ≠ j := by
    rintro rfl
    exact hk hj
  exact List.mem_of_getElem? (by rw [List.getElem?_set_ne hne, hj])

namespace Effect

/-- `tracker.active` stays the number of live connections. -/
theorem active_eq (he : Effect t a t') (h : t.tracker.active = t.guards.count .live) :
    t'.tracker.active = t'.guards.count .live := by
  cases he with
  | guard => simp [Tracker.guard, h]
  | last hk =>
    have := count_live_set (x := .waking) hk (by decide)
    simp only [Tracker.release, if_true] at this ⊢
    omega
  | release hk =>
    have := count_live_set (x := .ended) hk (by decide)
    simp only [Tracker.release, if_true] at this ⊢
    omega
  | wake hk =>
    have := count_live_set (x := .ended) hk (by decide)
    simp only [reduceCtorEq, if_false] at this ⊢
    omega
  | call | proceed | expire => exact h

/-- A connection that a `.release` ends was one of those that are counted. -/
theorem active_pos (he : Effect t (.release k) t') (h : t.tracker.active = t.guards.count .live) :
    0 < t.tracker.active := by
  rw [h, List.count_pos_iff]
  cases he with
  | last hk | release hk => exact List.mem_of_getElem? hk

/-- A `.release` takes one connection off the count, and a `.guard` adds one. -/
theorem taken_eq (he : Effect t a t') (h : t.tracker.active = t.guards.count .live) :
    t'.tracker.active + [a].countP Action.isRelease = t.tracker.active + [a].count .guard := by
  have hpos : ∀ k, a = .release k → 0 < t.tracker.active := by
    rintro k rfl
    exact he.active_pos h
  cases he with
  | guard => simp [Tracker.guard, Action.isRelease]
  | last | release =>
    have := hpos _ rfl
    simp [Tracker.release, Action.isRelease]
    omega
  | _ => simp [Action.isRelease]

/-- A wake-up that is to come from guard `k` was so before, or its connection was the last and has
just ended. -/
theorem waking (he : Effect t a t') (hk : t'.guards[k]? = some .waking) :
    t.guards[k]? = some .waking ∧ a ≠ .wake k ∨ a = .release k ∧ t.tracker.active = 1 := by
  cases he with
  | guard =>
    simp only [List.getElem?_append] at hk
    split at hk
    · exact .inl ⟨hk, by simp⟩
    · simp [List.getElem?_singleton] at hk
  | @last j hj hone =>
    by_cases hjk : j = k
    · exact .inr ⟨by rw [hjk], hone⟩
    · rw [List.getElem?_set_ne hjk] at hk
      exact .inl ⟨hk, by simp⟩
  | @release j hj | @wake j hj =>
    by_cases hjk : j = k
    · obtain ⟨hlt, -⟩ := List.getElem?_eq_some_iff.mp hj
      subst hjk
      simp [List.getElem?_set_self hlt] at hk
    · rw [List.getElem?_set_ne hjk] at hk
      exact .inl ⟨hk, by simp [hjk]⟩
  | call | proceed | expire => exact .inl ⟨hk, by simp⟩

/-- A drain is `.sleeping false` only if it is still to be woken: a connection is live, or one that
was the last is `.waking` and has yet to wake the drains. -/
theorem sleeping (he : Effect t a t') (hactive : t.tracker.active = t.guards.count .live)
    (h : .sleeping false ∈ t.drains → 0 < t.tracker.active ∨ .waking ∈ t.guards)
    (hd : .sleeping false ∈ t'.drains) : 0 < t'.tracker.active ∨ .waking ∈ t'.guards := by
  have hpos : ∀ k, a = .release k → 0 < t.tracker.active := by
    rintro k rfl
    exact he.active_pos hactive
  cases he with
  | guard => exact .inl (Nat.succ_pos _)
  | @last k hk =>
    obtain ⟨hlt, -⟩ := List.getElem?_eq_some_iff.mp hk
    exact .inr (List.mem_set hlt _)
  | release _ hone =>
    have := hpos _ rfl
    exact .inl (by simp only [Tracker.release]; omega)
  | wake =>
    -- Whoever has registered is woken, so nobody sleeps on.
    obtain ⟨d, -, hwoken⟩ := List.mem_map.mp hd
    exact (d.wake_ne_sleeping hwoken).elim
  | call => exact h (by simpa using hd)
  | proceed _ hnext =>
    rcases List.mem_or_eq_of_mem_set hd with hd | rfl
    · exact h hd
    · exact .inl (Waiter.active_pos_of_next? hnext)
  | expire =>
    rcases List.mem_or_eq_of_mem_set hd with hd | hd
    · exact h hd
    · cases hd

end Effect

/-! ## What every action keeps -/

/-- In the run `done`, the connection `k` has ended as the last one, and has not woken the drains
since. -/
def Overdue (done : List Action) (k : Nat) : Prop :=
  ∃ before after t, done = before ++ .release k :: after ∧ run? {} before = some t ∧
    t.tracker.active = 1 ∧ .wake k ∉ after

/-- What holds at every moment of a run: `t` is what `done` leads to. -/
structure Sound (done : List Action) (t : Tasks) : Prop where
  run_eq : run? {} done = some t
  active_eq : t.tracker.active = t.guards.count .live
  /-- What is `active` has begun and has not ended. -/
  taken_eq : t.tracker.active + done.countP Action.isRelease = done.count .guard
  /-- Whoever has yet to wake the drains has ended as the last connection. -/
  waking : ∀ k, t.guards[k]? = some .waking → Overdue done k
  /-- Whoever sleeps is still to be woken. -/
  sleeping : .sleeping false ∈ t.drains → 0 < t.tracker.active ∨ .waking ∈ t.guards

theorem sound_start : Sound [] {} :=
  ⟨rfl, rfl, rfl, fun _ h => by simp at h, fun h => by simp at h⟩

/-- The wake-up of `k` is to come until it comes. -/
theorem Overdue.concat (h : Overdue done k) (ha : a ≠ .wake k) : Overdue (done ++ [a]) k := by
  obtain ⟨before, after, s, rfl, hrun, hone, hno⟩ := h
  refine ⟨before, after ++ [a], s, by simp, hrun, hone, ?_⟩
  simpa [hno] using Ne.symm ha

/-- **Step.** Every action `a` keeps the count, and whoever sleeps is still to be woken. -/
theorem Sound.step (h : Sound done t) (hs : t.perform? a = some t') : Sound (done ++ [a]) t' := by
  have he := effect_of_perform? hs
  refine ⟨run?_concat h.run_eq hs, he.active_eq h.active_eq, ?_, fun k hk => ?_,
    he.sleeping h.active_eq h.sleeping⟩
  · have hnow := he.taken_eq h.active_eq
    have hbefore := h.taken_eq
    rw [List.countP_append, List.count_append]
    omega
  · rcases he.waking hk with ⟨hbefore, hne⟩ | ⟨rfl, hone⟩
    · exact (h.waking k hbefore).concat hne
    · exact ⟨done, [], t, rfl, h.run_eq, hone, by simp⟩

/-- **Run.** And so does every sequence of `actions`. -/
theorem Sound.run (h : Sound done t) (hr : t.run? actions = some t') :
    Sound (done ++ actions) t' := by
  induction actions generalizing done t with
  | nil =>
    cases hr
    rwa [List.append_nil]
  | cons a actions ih =>
    obtain ⟨s, hs, hr⟩ := Option.bind_eq_some_iff.mp hr
    rw [List.append_cons]
    exact ih (h.step hs) hr

/-! ## What a drain comes to -/

/-- The actions of the drain `d` at `k` change nothing but that drain. -/
theorem run?_proceed {d d' : Waiter} {n : Nat} (hd : t.drains[k]? = some d)
    (hgo : d.goOn? t.tracker.active n = some d') :
    t.run? (List.replicate n (.proceed k)) = some { t with drains := t.drains.set k d' } := by
  induction n generalizing t d with
  | zero =>
    cases hgo
    obtain ⟨hlt, hget⟩ := List.getElem?_eq_some_iff.mp hd
    rw [← hget, List.set_getElem_self]
    rfl
  | succ n ih =>
    obtain ⟨e, he, hgo⟩ := Option.bind_eq_some_iff.mp hgo
    obtain ⟨hlt, -⟩ := List.getElem?_eq_some_iff.mp hd
    have hstep : t.perform? (.proceed k) = some { t with drains := t.drains.set k e } := by
      simp [perform?, hd, he]
    rw [List.replicate_succ, run?_cons, hstep, Option.bind_some,
      ih (t := { t with drains := t.drains.set k e }) (List.getElem?_set_self hlt) hgo,
      List.set_set]

/-- On its own, a drain gets to `rest`. -/
theorem exists_run?_rest {d : Waiter} (hd : t.drains[k]? = some d) :
    ∃ n s, t.run? (List.replicate n (.proceed k)) = some s ∧ s.tracker = t.tracker ∧
      s.drains[k]? = some (d.rest t.tracker.active) := by
  obtain ⟨n, hn⟩ := d.exists_goOn?_rest t.tracker.active
  obtain ⟨hlt, -⟩ := List.getElem?_eq_some_iff.mp hd
  exact ⟨n, _, run?_proceed hd hn, rfl, List.getElem?_set_self hlt⟩

/-- **No lost wake-up.** In any order of the actions of any number of connections and drains (`h`):

* the count is the number of connections that have begun and have not ended, and a connection that
  ends finds it above zero;
* a drain sleeps and was not woken only while a connection is live, or while one that ended as the
  last one has yet to wake the drains (`Overdue`);
* so once no connection is live and no such wake-up is to come, every drain that its timeout has not
  ended returns on its own and tells that all connections finished. -/
theorem no_lost_wakeup (h : run? {} done = some t) :
    t.tracker.active + done.countP Action.isRelease = done.count .guard ∧
    (∀ k t', t.perform? (.release k) = some t' → 0 < t.tracker.active) ∧
    (∀ k : Nat, t.drains[k]? = some (.sleeping false) →
      0 < t.tracker.active ∨ ∃ j, Overdue done j) ∧
    (t.tracker.active = 0 → (∀ j, ¬ Overdue done j) → ∀ (k : Nat) d, t.drains[k]? = some d →
      d ≠ .returned false →
      ∃ n s, t.run? (List.replicate n (.proceed k)) = some s ∧
        s.drains[k]? = some (.returned true)) := by
  have hi : Sound done t := sound_start.run h
  have hsleep : ∀ k : Nat, t.drains[k]? = some (.sleeping false) →
      0 < t.tracker.active ∨ ∃ j, Overdue done j := fun k hk => by
    refine (hi.sleeping (List.mem_of_getElem? hk)).imp_right fun hw => ?_
    obtain ⟨j, hj⟩ := List.mem_iff_getElem?.mp hw
    exact ⟨j, hi.waking j hj⟩
  refine ⟨hi.taken_eq, fun k t' hs => (effect_of_perform? hs).active_pos hi.active_eq, hsleep,
    fun hzero hno k d hd hne => ?_⟩
  obtain ⟨n, s, hrun, -, hrest⟩ := exists_run?_rest hd
  refine ⟨n, s, hrun, hrest.trans (congrArg some ?_)⟩
  rw [hzero]
  -- A drain rests in its return, unless it sleeps and was not woken, which `hsleep` rules out, or
  -- its timeout has ended it.
  cases d with
  | sleeping woken =>
    cases woken with
    | true => rfl
    | false =>
      rcases hsleep k hd with hpos | ⟨j, hj⟩
      · omega
      · exact (hno j hj).elim
  | returned finished =>
    cases finished with
    | true => rfl
    | false => exact (hne rfl).elim
  | _ => rfl

/-- A drain has registered when the only connection ends, and another one begins before the drains
are woken. So the drain falls asleep; then that one ends, too, and both have yet to wake it. -/
theorem no_lost_wakeup_overtaken :
    let done : List Action := [.guard, .call, .proceed 0, .proceed 0, .proceed 0, .release 0,
      .guard, .proceed 0, .release 1]
    let t : Tasks := ⟨⟨0⟩, [.waking, .waking], [.sleeping false]⟩
    run? {} done = some t ∧ ∃ j, Overdue done j := by
  intro done t
  have h : run? {} done = some t := rfl
  obtain ⟨-, -, hsleep, -⟩ := no_lost_wakeup h
  exact ⟨h, (hsleep 0 rfl).resolve_left (by decide)⟩

/-! ## A drain that sleeps through an instant -/

/-- The change of the tracker that an action makes, if it makes one. -/
def Action.change? : Action → Option Change
  | .guard => some .guard
  | .release _ => some .release
  | _ => none

theorem Effect.tracker_eq (he : Effect t a t') :
    t'.tracker = a.change?.toList.foldl Change.apply t.tracker := by
  cases he <;> rfl

/-- Something happens while the drain `k` sleeps. It is woken by the last connection that ends, now
or as soon as that one gets to it. -/
theorem Effect.sleeper {woken : Bool} (he : Effect t a t')
    (hd : t.drains[k]? = some (.sleeping woken)) (hp : a ≠ .proceed k) (hx : a ≠ .expire k) :
    ∃ woken', t'.drains[k]? = some (.sleeping woken') ∧
      ((woken' = true ∨ .waking ∈ t'.guards) ↔
        (woken = true ∨ .waking ∈ t.guards) ∨ Drain.wakes t.tracker a.change?.toList = true) := by
  obtain ⟨hlt, hget⟩ := List.getElem?_eq_some_iff.mp hd
  cases he with
  | guard => exact ⟨woken, hd, by simp [Action.change?, Drain.wakes]⟩
  | @last j hj hone =>
    obtain ⟨hj, -⟩ := List.getElem?_eq_some_iff.mp hj
    exact ⟨woken, hd, by simp [Action.change?, Drain.wakes, hone, List.mem_set hj]⟩
  | @release j hj hone =>
    -- The guard that ends was live, so no wake-up that was due is lost with it.
    have hmem : .waking ∈ t.guards.set j .ended ↔ .waking ∈ t.guards :=
      ⟨fun h => (List.mem_or_eq_of_mem_set h).resolve_right (by decide),
        waking_mem_set (by simp [hj])⟩
    exact ⟨woken, hd, by simp [Action.change?, Drain.wakes, hone, hmem]⟩
  | wake hj =>
    refine ⟨true, by simp [hd, Waiter.wake], ?_⟩
    simp [List.mem_of_getElem? hj]
  | call =>
    refine ⟨woken, ?_, by simp [Action.change?, Drain.wakes]⟩
    rw [List.getElem?_append_left hlt, hd]
  | @proceed j _ _ hj =>
    have hne : j ≠ k := by
      rintro rfl
      exact hp rfl
    exact ⟨woken, by simp [List.getElem?_set_ne hne, hd], by simp [Action.change?, Drain.wakes]⟩
  | @expire j _ hj =>
    have hne : j ≠ k := by
      rintro rfl
      exact hx rfl
    exact ⟨woken, by simp [List.getElem?_set_ne hne, hd], by simp [Action.change?, Drain.wakes]⟩

theorem wakes_append (t : Tracker) (cs ds : List Change) :
    Drain.wakes t (cs ++ ds) = (Drain.wakes t cs || Drain.wakes (cs.foldl Change.apply t) ds) := by
  induction cs generalizing t with
  | nil => rfl
  | cons c cs ih => simp [Drain.wakes, ih, Bool.or_assoc]

/-- What happens while the drain `k` sleeps (`hquiet`) changes the tracker, and wakes the drain if a
connection ends as the last one. -/
theorem sleeper_run {woken : Bool} (hr : t.run? actions = some t')
    (hd : t.drains[k]? = some (.sleeping woken))
    (hquiet : ∀ a ∈ actions, a ≠ .proceed k ∧ a ≠ .expire k) :
    t'.tracker = (actions.filterMap Action.change?).foldl Change.apply t.tracker ∧
    ∃ woken', t'.drains[k]? = some (.sleeping woken') ∧
      ((woken' = true ∨ .waking ∈ t'.guards) ↔ (woken = true ∨ .waking ∈ t.guards) ∨
        Drain.wakes t.tracker (actions.filterMap Action.change?) = true) := by
  induction actions generalizing t woken with
  | nil =>
    cases hr
    exact ⟨rfl, woken, hd, by simp [Drain.wakes]⟩
  | cons a actions ih =>
    obtain ⟨s, hs, hr⟩ := Option.bind_eq_some_iff.mp hr
    have he := effect_of_perform? hs
    obtain ⟨hp, hx⟩ := hquiet a List.mem_cons_self
    obtain ⟨woken₁, hd₁, hiff₁⟩ := he.sleeper hd hp hx
    obtain ⟨htracker, woken₂, hd₂, hiff₂⟩ :=
      ih hr hd₁ fun b hb => hquiet b (List.mem_cons_of_mem _ hb)
    have hsplit : (a :: actions).filterMap Action.change? =
        a.change?.toList ++ actions.filterMap Action.change? := by
      cases ha : a.change? <;> simp [ha]
    rw [hsplit, List.foldl_append, wakes_append, ← he.tracker_eq]
    refine ⟨htracker, woken₂, hd₂, ?_⟩
    rw [hiff₂, hiff₁, Bool.or_eq_true, or_assoc]

/-- **Instant.** A drain sleeps, and no wake-up is to come (`hno`). The tasks of connections go
through the changes of the instant `i` in some order (`hchanges`), and then the drain goes on. It
does what `Drain.sleep` does at `i`: it returns if it was woken and no connection is live behind
them, and else it sleeps again. -/
theorem sleeper_instant {i : Instant} (hr : t.run? actions = some t')
    (hd : t.drains[k]? = some (.sleeping false)) (hno : .waking ∉ t.guards)
    (hno' : .waking ∉ t'.guards) (hquiet : ∀ a ∈ actions, a ≠ .proceed k ∧ a ≠ .expire k)
    (hchanges : actions.filterMap Action.change? = i.changes) :
    ∃ n s, t'.run? (List.replicate n (.proceed k)) = some s ∧
      s.tracker = i.apply t.tracker ∧ s.drains[k]? = some
        (if Drain.wakes t.tracker i.changes && (i.apply t.tracker).active == 0 then .returned true
        else .sleeping false) := by
  obtain ⟨htracker, woken, hd', hiff⟩ := sleeper_run hr hd hquiet
  rw [hchanges] at htracker hiff
  have hwoken : woken = Drain.wakes t.tracker i.changes :=
    Bool.eq_iff_iff.mpr (by simpa [hno, hno'] using hiff)
  obtain ⟨n, s, hrun, hsame, hrest⟩ := exists_run?_rest hd'
  refine ⟨n, s, hrun, hsame.trans htracker, hrest.trans (congrArg some ?_)⟩
  rw [htracker, ← hwoken]
  cases woken <;> simp [Waiter.rest, Instant.apply]

end Tasks

end Handoff
