import Handoff.Proofs.Fd.Table
import Handoff.System.Basic

/-!
# Processes by number

Which process runs is a matter of the point of view: `System.focus` moves it and loses nothing. What
stays the same is the process behind each number, and a step of the running process is one that
leaves those of the others alone.

* `System.process?`: the process with a number, running or not.
* `System.process?_of_focus`: the point of view does not matter.
* `System.Frame`: a step of the running process alone.
* `System.isLive_of_file?`: an fd of any process keeps a socket alive.
-/

namespace Handoff

namespace System

/-- The process with the number `pid`. -/
def process? (s : System) (pid : Nat) : Option Process :=
  (s.self :: s.others).find? (·.pid == pid)

/-- The numbers from `nextPid` on are free. -/
def Fresh (s : System) : Prop := ∀ p ∈ s.self :: s.others, p.pid < s.nextPid

instance (s : System) : Decidable s.Fresh :=
  inferInstanceAs (Decidable (∀ p ∈ s.self :: s.others, p.pid < s.nextPid))

variable {s v v' : System} {pid : Nat} {p : Process}

@[simp] theorem process?_self (s : System) : s.process? s.self.pid = some s.self := by
  simp [process?]

theorem process?_of_ne (h : s.self.pid ≠ pid) :
    s.process? pid = s.others.find? (·.pid == pid) := by
  simp [process?, h]

theorem mem_of_process? (h : s.process? pid = some p) : p ∈ s.self :: s.others :=
  List.mem_of_find?_eq_some h

theorem pid_of_process? (h : s.process? pid = some p) : p.pid = pid := by
  simpa using List.find?_some h

/-- The socket `id` is alive if an fd of any process refers to it. -/
theorem isLive_of_file? {id : Nat} {fd : Int} (hp : s.process? pid = some p)
    (hf : p.fds.file? fd = some (.socket id)) : s.isLive id = true :=
  List.any_eq_true.mpr ⟨p, mem_of_process? hp, FdTable.refersTo_of_file? hf⟩

theorem find?_filter_of_ne (ps : List Process) {q : Nat} (hq : q ≠ pid) :
    (ps.filter (·.pid != pid)).find? (·.pid == q) = ps.find? (·.pid == q) := by
  have hp : (fun p : Process => decide ((p.pid != pid) = true ∧ (p.pid == q) = true)) =
      fun p => p.pid == q := by
    funext p
    by_cases h : p.pid = q <;> simp [h, hq]
  simp only [List.find?_filter, hp]

/-! ## The point of view -/

/-- Every process `p` can be put into view with `focus`. -/
theorem exists_focus (h : s.process? pid = some p) : ∃ v, s.focus pid = some v ∧ v.self = p := by
  unfold focus
  by_cases hs : s.self.pid = pid
  · subst hs
    rw [process?_self] at h
    cases h
    exact ⟨s, by simp, rfl⟩
  · rw [process?_of_ne hs] at h
    simp [hs, h]

theorem focus_self (s : System) : s.focus s.self.pid = some s := by
  simp [focus]

/-- `focus` changes nothing but the point of view: not the processes, nor what else there is. -/
theorem process?_of_focus (h : s.focus pid = some v) :
    v.self.pid = pid ∧ (∀ q, v.process? q = s.process? q) ∧
      v.sockets = s.sockets ∧ v.files = s.files ∧ v.nextPid = s.nextPid := by
  unfold focus at h
  split at h
  · cases h
    exact ⟨by assumption, fun _ => rfl, rfl, rfl, rfl⟩
  · rename_i hs
    split at h
    · cases h
    · rename_i p hp
      cases h
      have hpid : p.pid = pid := by simpa using List.find?_some hp
      refine ⟨hpid, fun q => ?_, rfl, rfl, rfl⟩
      by_cases hq : q = pid
      · subst hq
        rw [process?_of_ne hs, hp]
        simp [process?, hpid]
      · have hself : ¬ p.pid = q := fun h => hq (h ▸ hpid)
        simp [process?, hself, List.find?_cons, find?_filter_of_ne _ hq]

theorem Fresh.focus (hf : s.Fresh) (h : s.focus pid = some v) : v.Fresh := by
  unfold System.focus at h
  split at h
  · cases h; exact hf
  · split at h
    · cases h
    · rename_i p hp
      cases h
      intro q hq
      rcases List.mem_cons.mp hq with rfl | hq
      · exact hf _ (List.mem_cons_of_mem _ (List.mem_of_find?_eq_some hp))
      · rcases List.mem_cons.mp hq with rfl | hq
        · exact hf _ List.mem_cons_self
        · exact hf _ (List.mem_cons_of_mem _ (List.mem_filter.mp hq).1)

/-! ## Steps of the running process -/

/-- A step from `v` to `v'` of the running process alone: processes that have not ended stay as they
are, apart from the running one, which stays the same process. -/
structure Frame (v v' : System) : Prop where
  pid_eq : v'.self.pid = v.self.pid
  status_eq : v'.self.status = v.self.status
  sockets_eq : v'.sockets = v.sockets
  nextPid_eq : v'.nextPid = v.nextPid
  others_subset : ∀ p ∈ v'.others, p ∈ v.others
  /-- No other process that has not ended is touched. -/
  process?_eq : ∀ pid p, pid ≠ v.self.pid → v.process? pid = some p → p.status = none →
    v'.process? pid = some p

theorem Frame.refl (v : System) : Frame v v :=
  ⟨rfl, rfl, rfl, rfl, fun _ h => h, fun _ _ _ h _ => h⟩

/-- A step in which only the running process changes, in its fds and variables, is a `Frame`. -/
theorem Frame.of_self (hpid : v'.self.pid = v.self.pid) (hstatus : v'.self.status = v.self.status)
    (hsockets : v'.sockets = v.sockets) (hnext : v'.nextPid = v.nextPid)
    (hothers : v'.others = v.others) : Frame v v' := by
  refine ⟨hpid, hstatus, hsockets, hnext, fun p h => hothers ▸ h, fun q p hq hp _ => ?_⟩
  rw [process?_of_ne (hpid ▸ Ne.symm hq), hothers, ← process?_of_ne (Ne.symm hq)]
  exact hp

theorem frame_withFds (v : System) (t : FdTable) : Frame v (v.withFds t) :=
  .of_self rfl rfl rfl rfl rfl

theorem frame_withEnv (v : System) (e : Environment) : Frame v (v.withEnv e) :=
  .of_self rfl rfl rfl rfl rfl

theorem Frame.fresh (h : Frame v v') (hf : v.Fresh) : v'.Fresh := by
  intro p hp
  rw [h.nextPid_eq]
  rcases List.mem_cons.mp hp with rfl | hp
  · rw [h.pid_eq]
    exact hf _ List.mem_cons_self
  · exact hf _ (List.mem_cons_of_mem _ (h.others_subset p hp))

theorem Frame.trans {v'' : System} (h : Frame v v') (h' : Frame v' v'') : Frame v v'' := by
  refine ⟨h'.pid_eq.trans h.pid_eq, h'.status_eq.trans h.status_eq,
    h'.sockets_eq.trans h.sockets_eq, h'.nextPid_eq.trans h.nextPid_eq,
    fun p hp => h.others_subset p (h'.others_subset p hp), fun pid p hpid hp hs => ?_⟩
  exact h'.process?_eq pid p (h.pid_eq ▸ hpid) (h.process?_eq pid p hpid hp hs) hs

/-- `collect` takes out only a process that has ended. -/
theorem frame_of_collect {st : Option ExitStatus} (h : v.collect pid = .ok (st, v')) :
    Frame v v' ∧ v'.self = v.self := by
  unfold collect at h
  split at h
  · cases h
  · rename_i p hp
    split at h
    · cases h
      exact ⟨.refl v, rfl⟩
    · rename_i st' hst
      cases h
      refine ⟨⟨rfl, rfl, rfl, rfl, fun q hq => (List.mem_filter.mp hq).1, ?_⟩, rfl⟩
      -- The number that was collected is that of an ended process, so a process `p'` that has not
      -- ended has another one.
      intro q p' hq hp' hs
      rw [process?_of_ne (Ne.symm hq)] at hp'
      have hne : q ≠ pid := by
        rintro rfl
        rw [hp] at hp'
        cases hp'
        rw [hst] at hs
        cases hs
      refine (process?_of_ne ?_).trans ((find?_filter_of_ne _ hne).trans hp')
      exact Ne.symm hq

/-! ## Launches -/

/-- `p` is started, with the next number. -/
def add (s : System) (p : Process) : System :=
  { s with nextPid := s.nextPid + 1, others := p :: s.others }

theorem Fresh.add (hf : s.Fresh) (hp : p.pid = s.nextPid) : (s.add p).Fresh := by
  intro q hq
  show q.pid < s.nextPid + 1
  rcases List.mem_cons.mp hq with rfl | hq
  · exact Nat.lt_succ_of_lt (hf _ List.mem_cons_self)
  · rcases List.mem_cons.mp hq with rfl | hq
    · exact hp ▸ Nat.lt_succ_self _
    · exact Nat.lt_succ_of_lt (hf _ (List.mem_cons_of_mem _ hq))

theorem process?_add_self (hf : s.Fresh) (hp : p.pid = s.nextPid) :
    (s.add p).process? s.nextPid = some p := by
  have hself : s.self.pid ≠ s.nextPid := Nat.ne_of_lt (hf _ List.mem_cons_self)
  simp [process?, add, hself, hp]

theorem process?_add_of_ne (hp : p.pid = s.nextPid) {q : Nat} (hq : q ≠ s.nextPid) :
    (s.add p).process? q = s.process? q := by
  simp [process?, add, hp, List.find?_cons, Ne.symm hq]

theorem Fresh.ne_nextPid (hf : s.Fresh) (h : s.process? pid = some p) : pid ≠ s.nextPid := by
  rw [← pid_of_process? h]
  exact Nat.ne_of_lt (hf p (mem_of_process? h))

end System

end Handoff
