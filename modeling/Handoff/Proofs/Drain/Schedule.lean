import Mathlib.Data.List.Infix
import Mathlib.Order.Bounds.Defs
import Handoff.Proofs.Drain

/-!
# When a drain returns

The connections begin and end on a schedule. A drain returns at the first instant before its timeout
behind which none is live, and at the timeout if there is no such instant. What happens within an
instant does not matter: only the count behind all of it does.

* `Drain.Scheduled`: a schedule, on which only live connections end.
* `Drain.live`, `Drain.live_eq`: how many are live at a time, by counting and by the tracker.
* `Drain.wait_first`, `Drain.wait_never`: the two ways of a wait.
* `Drain.sleep_eq_wait`: a drain that looks only when it is woken misses nothing.
* `Drain.run_on_schedule`: what a drain reports, and when.
-/

namespace Handoff

namespace Drain

variable {timeout time : Nat} {t : Tracker} {i : Instant} {is : List Instant} {cs : List Change}

/-! ## Counting -/

def changes (is : List Instant) : List Change := is.flatMap (·.changes)

/-- Instants in ascending order at which only live connections end. -/
structure Scheduled (t : Tracker) (is : List Instant) : Prop where
  ascending : is.Pairwise (·.time < ·.time)
  /-- Never have more connections ended than were there at the call or have begun since. -/
  count_le : ∀ cs, cs <+: changes is → cs.count .release ≤ t.active + cs.count .guard

/-- The instants up to `time`. -/
def upTo (is : List Instant) (time : Nat) : List Instant := is.filter (·.time ≤ time)

/-- How many connections are live behind all that happens up to `time`: those at the call and those
that have begun, less those that have ended. -/
def live (t : Tracker) (is : List Instant) (time : Nat) : Nat :=
  t.active + (changes (upTo is time)).count .guard - (changes (upTo is time)).count .release

/-- As long as only live connections end (`h`), the tracker counts them. -/
theorem active_apply (h : ∀ p, p <+: cs → p.count .release ≤ t.active + p.count .guard) :
    (cs.foldl Change.apply t).active + cs.count .release = t.active + cs.count .guard := by
  induction cs generalizing t with
  | nil => rfl
  | cons c cs ih =>
    -- `Tracker.release` stops at zero, which `h` for the first change alone rules out.
    have hhead := h [c] (List.prefix_append [c] cs)
    have htail : ∀ p, p <+: cs →
        p.count .release ≤ (c.apply t).active + p.count .guard := by
      intro p hp
      have := h (c :: p) (List.cons_prefix_cons.mpr ⟨rfl, hp⟩)
      cases c <;> simp [Change.apply, Tracker.guard, Tracker.release] at hhead this ⊢ <;> omega
    have := ih htail
    cases c <;> simp [Change.apply, Tracker.guard, Tracker.release] at hhead this ⊢ <;> omega

theorem track_eq_foldl (t : Tracker) (is : List Instant) :
    track t is = (changes is).foldl Change.apply t := by
  induction is generalizing t with
  | nil => rfl
  | cons i is ih =>
    show track (i.apply t) is = (i.changes ++ changes is).foldl Change.apply t
    rw [ih, List.foldl_append]
    rfl

/-- In ascending order, the instants up to `time` are a front part. -/
theorem upTo_isPrefix (h : is.Pairwise (·.time < ·.time)) (time : Nat) : upTo is time <+: is := by
  induction is with
  | nil => exact List.prefix_rfl
  | cons i is ih =>
    obtain ⟨hi, his⟩ := List.pairwise_cons.mp h
    unfold upTo
    by_cases hle : i.time ≤ time
    · rw [List.filter_cons_of_pos (by simpa using hle)]
      exact List.cons_prefix_cons.mpr ⟨rfl, ih his⟩
    · have hnone : is.filter (·.time ≤ time) = [] := by
        refine List.filter_eq_nil_iff.mpr fun j hj => ?_
        have := hi j hj
        simp only [decide_eq_true_eq]
        omega
      rw [List.filter_cons_of_neg (by simpa using hle), hnone]
      exact List.nil_prefix

theorem changes_isPrefix {js : List Instant} (h : js <+: is) : changes js <+: changes is := by
  obtain ⟨ks, rfl⟩ := h
  rw [changes, changes, List.flatMap_append]
  exact List.prefix_append ..

/-- On a schedule, the tracker behind `time` shows how many are live then. -/
theorem live_eq (h : Scheduled t is) (time : Nat) :
    live t is time = (track t (upTo is time)).active := by
  have hprefix := changes_isPrefix (upTo_isPrefix h.ascending time)
  have := active_apply fun p hp => h.count_le p (hp.trans hprefix)
  rw [track_eq_foldl, live]
  omega

/-! ## The two ways of a wait -/

/-- The instants up to `time`, when the first one is among them. -/
theorem upTo_cons (h : i.time ≤ time) : upTo (i :: is) time = i :: upTo is time :=
  List.filter_cons_of_pos (by simpa using h)

/-- The instants up to the time of the first one, `i`, are that one. -/
theorem upTo_head (h : (i :: is).Pairwise (·.time < ·.time)) : upTo (i :: is) i.time = [i] := by
  rw [upTo_cons (Nat.le_refl _)]
  congr 1
  refine List.filter_eq_nil_iff.mpr fun j hj => ?_
  have := (List.pairwise_cons.mp h).1 j hj
  simp only [decide_eq_true_eq]
  omega

/-- A look at the first instant: if something is active behind it (`hpos`), the wait goes on. -/
theorem wait_cons (h : (i :: is).Pairwise (·.time < ·.time)) (htime : i.time < timeout)
    (hpos : 0 < (track t (upTo (i :: is) i.time)).active) :
    wait timeout t (i :: is) = wait timeout (i.apply t) is := by
  rw [upTo_head h] at hpos
  rw [wait, if_neg (by omega)]
  exact if_neg (Nat.ne_of_gt hpos)

/-- **In time.** A wait ends at `i`, the first instant before `timeout` behind which nothing is
active. -/
theorem wait_first {before after : List Instant}
    (h : (before ++ i :: after).Pairwise (·.time < ·.time)) (htime : i.time < timeout)
    (hpos : ∀ j ∈ before, 0 < (track t (upTo (before ++ i :: after) j.time)).active)
    (hzero : (track t (upTo (before ++ i :: after) i.time)).active = 0) :
    wait timeout t (before ++ i :: after) = (true, i.time, track t (before ++ [i])) := by
  induction before generalizing t with
  | nil =>
    rw [List.nil_append, upTo_head h] at hzero
    rw [List.nil_append, wait, if_neg (by omega)]
    exact if_pos hzero
  | cons k before ih =>
    rw [List.cons_append] at h hpos hzero ⊢
    obtain ⟨hk, hrest⟩ := List.pairwise_cons.mp h
    have hki := hk i (by simp)
    rw [wait_cons h (by omega) (hpos k List.mem_cons_self)]
    refine ih hrest (fun j hj => ?_) ?_
    · have := hpos j (List.mem_cons_of_mem _ hj)
      rwa [upTo_cons (Nat.le_of_lt (hk j (by simp [hj])))] at this
    · rwa [upTo_cons (Nat.le_of_lt hki)] at hzero

/-- **Too late.** A wait that meets no such instant before `timeout` is not over in time. -/
theorem wait_never (h : is.Pairwise (·.time < ·.time))
    (hpos : ∀ j ∈ is, j.time < timeout → 0 < (track t (upTo is j.time)).active) :
    (wait timeout t is).1 = false := by
  induction is generalizing t with
  | nil => rfl
  | cons k is ih =>
    obtain ⟨hk, hrest⟩ := List.pairwise_cons.mp h
    by_cases hlate : timeout ≤ k.time
    · rw [wait, if_pos hlate]
    · rw [wait_cons h (by omega) (hpos k List.mem_cons_self (by omega))]
      refine ih hrest fun j hj hjt => ?_
      have := hpos j (List.mem_cons_of_mem _ hj) hjt
      rwa [upTo_cons (Nat.le_of_lt (hk j hj))] at this

/-! ## Waking up

The last connection that ends wakes the drain, and nothing else does. When it looks, another one may
have begun; then it sleeps on. -/

/-- Whether one of the changes ends the last connection that `t` counts. -/
def wakes (t : Tracker) : List Change → Bool
  | [] => false
  | c :: cs => (c == .release && t.active == 1) || wakes (c.apply t) cs

/-- The drain that looks at the count only when it was woken. -/
def sleep (timeout : Nat) (t : Tracker) : List Instant → Bool × Nat × Tracker
  | [] => (false, timeout, t)
  | i :: is =>
    if timeout ≤ i.time then (false, timeout, t)
    else if wakes t i.changes && (i.apply t).active == 0 then (true, i.time, i.apply t)
    else sleep timeout (i.apply t) is

/-- A count that is positive gets to zero by the end of the last connection only, so one of `cs`
wakes the drain. -/
theorem wakes_of_zero (hpos : 0 < t.active) (hzero : (cs.foldl Change.apply t).active = 0) :
    wakes t cs = true := by
  induction cs generalizing t with
  | nil => exact absurd hzero (Nat.ne_of_gt hpos)
  | cons c cs ih =>
    rw [wakes, Bool.or_eq_true]
    by_cases hnext : 0 < (c.apply t).active
    · exact .inr (ih hnext hzero)
    · cases c with
      | guard => exact absurd (Nat.succ_pos _) hnext
      | release =>
        have hone : t.active = 1 := by
          have : ¬ 0 < t.active - 1 := hnext
          omega
        exact .inl (by simp [hone])

/-- **Wake-ups.** A drain that looks only when it is woken (`sleep`) does what one does that looks
behind every instant (`wait`): no end is missed, and to be woken for nothing does no harm. -/
theorem sleep_eq_wait (hpos : 0 < t.active) : sleep timeout t is = wait timeout t is := by
  induction is generalizing t with
  | nil => rfl
  | cons i is ih =>
    rw [sleep, wait]
    by_cases hlate : timeout ≤ i.time
    · rw [if_pos hlate, if_pos hlate]
    · rw [if_neg hlate, if_neg hlate]
      simp only
      by_cases hzero : (i.apply t).active = 0
      · rw [if_pos hzero, if_pos (by simp [wakes_of_zero hpos hzero, hzero])]
      · rw [if_neg hzero, if_neg (by simp [hzero]), ih (Nat.pos_of_ne_zero hzero)]

/-! ## What a drain reports -/

/-- If nothing is `live` behind some instant before `timeout` (`hidle`), there is a first such
instant, and the drain returns there. -/
theorem run_of_idle (h : Scheduled t is) (hactive : 0 < t.active)
    (hidle : ∃ i ∈ is, i.time < timeout ∧ live t is i.time = 0) :
    (run timeout t is).finished = true ∧
      IsLeast {time | time < timeout ∧ live t is time = 0 ∧ ∃ i ∈ is, i.time = time}
        (run timeout t is).elapsed := by
  obtain ⟨k, hk, hkt, hkz⟩ := hidle
  have hsome : (is.find? fun i => i.time < timeout ∧ live t is i.time = 0).isSome = true :=
    List.find?_isSome.mpr ⟨k, hk, by simp [hkt, hkz]⟩
  obtain ⟨i, hi⟩ := Option.isSome_iff_exists.mp hsome
  obtain ⟨hfound, before, after, hsplit, hbefore⟩ := List.find?_eq_some_iff_append.mp hi
  simp only [decide_eq_true_eq] at hfound
  simp only [Bool.not_eq_true', decide_eq_false_iff_not, not_and] at hbefore
  obtain ⟨-, hafter, hacross⟩ := List.pairwise_append.mp (hsplit ▸ h.ascending)
  have hwait : wait timeout t is = (true, i.time, track t (before ++ [i])) := by
    have hzero := hfound.2
    rw [live_eq h, hsplit] at hzero
    rw [hsplit]
    refine wait_first (hsplit ▸ h.ascending) hfound.1 (fun j hj => ?_) hzero
    have hji := hacross j hj i List.mem_cons_self
    rw [← hsplit, ← live_eq h]
    exact Nat.pos_of_ne_zero (hbefore j hj (Nat.lt_trans hji hfound.1))
  rw [(run_of_active hactive).1, (run_of_active hactive).2.1, hwait]
  refine ⟨rfl, ⟨hfound.1, hfound.2, i, List.mem_of_find?_eq_some hi, rfl⟩, ?_⟩
  -- Any other such instant is not before the first one, so it comes later.
  rintro time ⟨htime, hzero, j, hj, rfl⟩
  rw [hsplit, List.mem_append, List.mem_cons] at hj
  rcases hj with hj | rfl | hj
  · exact (hbefore j hj htime hzero).elim
  · exact Nat.le_refl _
  · exact Nat.le_of_lt ((List.pairwise_cons.mp hafter).1 j hj)

/-- If something is `live` behind every instant before `timeout`, the drain gives up. -/
theorem run_of_busy (h : Scheduled t is) (hactive : 0 < t.active)
    (hbusy : ∀ i ∈ is, i.time < timeout → 0 < live t is i.time) :
    (run timeout t is).finished = false ∧ (run timeout t is).elapsed = timeout := by
  have hfinished : (run timeout t is).finished = false := by
    rw [(run_of_active hactive).1]
    exact wait_never h.ascending fun j hj hjt => live_eq h j.time ▸ hbusy j hj hjt
  exact ⟨hfinished, (run_gaveUp hfinished).1⟩

/-- What the drain returns is what the instants `before` that it has seen have made of `t`. -/
theorem run_tracker (timeout : Nat) (t : Tracker) (is : List Instant) :
    ∃ before after, is = before ++ after ∧ (run timeout t is).tracker = track t before := by
  cases hf : (run timeout t is).finished with
  | true =>
    obtain ⟨before, after, hsplit, htracker, -⟩ := run_finished hf
    exact ⟨before, after, hsplit, htracker⟩
  | false =>
    obtain ⟨-, -, before, after, hsplit, htracker⟩ := run_gaveUp hf
    exact ⟨before, after, hsplit, htracker⟩

/-- **Drain.** If no connection is live at the call, the drain is `finished` at once. Otherwise it
is so if none is `live` behind some instant before `timeout`, at the earliest such instant: a count
that reaches zero and rises again within an instant does not end it. If some connection is `live` at
every time up to `timeout`, it gives up at `timeout` and not earlier. The drain itself never changes
the count. -/
theorem run_on_schedule (h : Scheduled t is) (timeout : Nat) :
    let o := run timeout t is
    (t.active = 0 → o.finished = true ∧ o.elapsed = 0) ∧
    (0 < t.active →
      ((∃ i ∈ is, i.time < timeout ∧ live t is i.time = 0) → o.finished = true) ∧
      (o.finished = true →
        IsLeast {time | time < timeout ∧ live t is time = 0 ∧ ∃ i ∈ is, i.time = time} o.elapsed) ∧
      ((∀ time ≤ timeout, 0 < live t is time) → o.finished = false ∧ o.elapsed = timeout)) ∧
    ∃ before after, is = before ++ after ∧ o.tracker = track t before ∧
      track o.tracker after = track t is := by
  intro o
  refine ⟨fun hzero => ?_, fun hactive => ⟨fun hidle => (run_of_idle h hactive hidle).1,
    fun hfinished => ?_, fun hbusy => ?_⟩, ?_⟩
  · have hrun : o = ⟨true, 0, t, []⟩ := if_pos hzero
    rw [hrun]
    exact ⟨rfl, rfl⟩
  · by_cases hidle : ∃ i ∈ is, i.time < timeout ∧ live t is i.time = 0
    · exact (run_of_idle h hactive hidle).2
    · have hbusy : ∀ i ∈ is, i.time < timeout → 0 < live t is i.time := fun i hi ht =>
        Nat.pos_of_ne_zero fun hz => hidle ⟨i, hi, ht, hz⟩
      rw [(run_of_busy h hactive hbusy).1] at hfinished
      cases hfinished
  · exact run_of_busy h hactive fun i _ ht => hbusy i.time (Nat.le_of_lt ht)
  · obtain ⟨before, after, hsplit, htracker⟩ := run_tracker timeout t is
    refine ⟨before, after, hsplit, htracker, ?_⟩
    rw [htracker, hsplit, track, track, track, List.foldl_append]

/-- Two connections are live. At the second millisecond one ends and, in the same instant, the other
one ends and a third begins; that one ends at the fifth. So the drain is over at the fifth. -/
theorem run_on_schedule_crossing :
    let is : List Instant := [⟨2, [.release, .release, .guard]⟩, ⟨5, [.release]⟩, ⟨7, [.guard]⟩]
    let o := run 6 ⟨2⟩ is
    Scheduled ⟨2⟩ is ∧ o.finished = true ∧ live ⟨2⟩ is o.elapsed = 0 ∧ o.elapsed = 5 := by
  intro is o
  have h : Scheduled ⟨2⟩ is := by
    have hcount : ∀ cs ∈ (changes is).inits, cs.count .release ≤ 2 + cs.count .guard := by decide
    exact ⟨by simp [is], fun cs hcs => hcount cs ((List.mem_inits cs _).mpr hcs)⟩
  obtain ⟨-, hwaits, -⟩ := run_on_schedule h 6
  obtain ⟨hidle, hleast, -⟩ := hwaits (by decide)
  have hfinished := hidle ⟨⟨5, [.release]⟩, by simp [is], by decide, by decide⟩
  exact ⟨h, hfinished, (hleast hfinished).1.2.1, rfl⟩

end Drain

end Handoff
