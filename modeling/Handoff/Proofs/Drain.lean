import Handoff.Drain

/-!
# What a drain reports

A drain stops at the first instant behind which nothing is active, or at the timeout. Either way it
has seen a front part of the instants, and the tracker that it returns is the one behind those.

* `Drain.run_finished`: a drain that reports the end of all connections has seen it.
* `Drain.run_gaveUp`: any other one has waited for as long as it may.
-/

namespace Handoff

namespace Drain

def track (t : Tracker) (is : List Instant) : Tracker := is.foldl Instant.apply t

variable {timeout : Nat} {t : Tracker} {is : List Instant}

/-- A wait ends in time at an instant `i` behind which nothing is active. -/
theorem wait_finished (h : (wait timeout t is).1 = true) :
    ∃ before i after, is = before ++ i :: after ∧ (wait timeout t is).2.1 = i.time ∧
      i.time < timeout ∧ (wait timeout t is).2.2 = track t (before ++ [i]) ∧
      (wait timeout t is).2.2.active = 0 := by
  induction is generalizing t with
  | nil => simp [wait] at h
  | cons i is ih =>
    unfold wait at h ⊢
    by_cases hlate : timeout ≤ i.time
    · simp [hlate] at h
    · rw [if_neg hlate] at h ⊢
      by_cases hzero : (i.apply t).active = 0
      · simp only [if_pos hzero]
        exact ⟨[], i, is, rfl, rfl, by omega, rfl, hzero⟩
      · simp only [hzero, if_false] at h ⊢
        obtain ⟨before, j, after, rfl, htime, hlt, htracker, hactive⟩ := ih h
        exact ⟨i :: before, j, after, rfl, htime, hlt, htracker, hactive⟩

/-- A wait that is not over in time ends at `timeout`, with something active. -/
theorem wait_gaveUp (hactive : 0 < t.active) (h : (wait timeout t is).1 = false) :
    (wait timeout t is).2.1 = timeout ∧ 0 < (wait timeout t is).2.2.active ∧
      ∃ before after, is = before ++ after ∧ (wait timeout t is).2.2 = track t before := by
  induction is generalizing t with
  | nil => exact ⟨rfl, hactive, [], [], rfl, rfl⟩
  | cons i is ih =>
    unfold wait at h ⊢
    by_cases hlate : timeout ≤ i.time
    · rw [if_pos hlate]
      exact ⟨rfl, hactive, [], i :: is, rfl, rfl⟩
    · rw [if_neg hlate] at h ⊢
      by_cases hzero : (i.apply t).active = 0
      · simp [hzero] at h
      · simp only [hzero, if_false] at h ⊢
        obtain ⟨htime, hpos, before, after, rfl, htracker⟩ := ih (Nat.pos_of_ne_zero hzero) h
        exact ⟨htime, hpos, i :: before, after, rfl, htracker⟩

theorem run_of_active (h : 0 < t.active) :
    (run timeout t is).finished = (wait timeout t is).1 ∧
      (run timeout t is).elapsed = (wait timeout t is).2.1 ∧
      (run timeout t is).tracker = (wait timeout t is).2.2 := by
  unfold run
  rw [if_neg (Nat.ne_of_gt h)]
  exact ⟨rfl, rfl, rfl⟩

/-- The time of the last of some instants, or zero. -/
def lastTime (is : List Instant) : Nat := (is.getLast?.map (·.time)).getD 0

/-- **Finished.** Nothing was active behind the instants `before` that the drain has seen. It has
taken until the last of them, which is before `timeout`, or no time at all. -/
theorem run_finished (h : (run timeout t is).finished = true) :
    ∃ before after, is = before ++ after ∧ (run timeout t is).tracker = track t before ∧
      (run timeout t is).tracker.active = 0 ∧ (run timeout t is).elapsed = lastTime before ∧
      (before = [] ∨ lastTime before < timeout) := by
  by_cases hzero : t.active = 0
  · have hrun : run timeout t is = ⟨true, 0, t, []⟩ := by
      unfold run
      rw [if_pos hzero]
    rw [hrun]
    exact ⟨[], is, rfl, rfl, hzero, rfl, .inl rfl⟩
  · obtain ⟨hfinished, helapsed, htracker⟩ := run_of_active (Nat.pos_of_ne_zero hzero)
    rw [hfinished] at h
    obtain ⟨before, i, after, his, htime, hlt, htrack, hactive⟩ := wait_finished h
    have hlast : lastTime (before ++ [i]) = i.time := by
      rw [lastTime, List.getLast?_concat]
      rfl
    refine ⟨before ++ [i], after, by simp [his], htracker.trans htrack, ?_, ?_, ?_⟩
    · rw [htracker]
      exact hactive
    · rw [hlast]
      exact helapsed.trans htime
    · rw [hlast]
      exact .inr hlt

/-- **Given up.** The drain has taken until `timeout`, and something was active then. -/
theorem run_gaveUp (h : (run timeout t is).finished = false) :
    (run timeout t is).elapsed = timeout ∧ 0 < (run timeout t is).tracker.active ∧
      ∃ before after, is = before ++ after ∧ (run timeout t is).tracker = track t before := by
  by_cases hzero : t.active = 0
  · unfold run at h
    rw [if_pos hzero] at h
    cases h
  · have hactive := Nat.pos_of_ne_zero hzero
    obtain ⟨hfinished, helapsed, htracker⟩ := run_of_active hactive
    rw [hfinished] at h
    rw [helapsed, htracker]
    exact wait_gaveUp hactive h

end Drain

end Handoff
