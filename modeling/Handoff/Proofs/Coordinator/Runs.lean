import Handoff.Proofs.Coordinator.Calls

/-!
# Whole runs of a coordinator

The listener, the stop token and the phase are changed by different calls, by launches that succeed
and fail and closings that do, and still they agree at every moment of every run.

* `Turn`, `History`: the calls of a run with what each of them asked for.
* `Coordinator.Move.of_releases`, `Coordinator.Move.of_not_releases`: what moves listener and token.
* `History.Coherent`: what listener, token, phase and requests have to do with each other.
* `History.Coherent.next`: every call keeps it.
* `History.coherent_run`: what that means for a run from the start.
-/

namespace Handoff

/-- A call of a run, with the coordinator just `before` it and what it `asked` for. -/
structure Turn where
  call : Call
  before : Coordinator
  /-- What the surroundings were asked for on the way, and their answers. -/
  asked : List Invocation

namespace Turn

/-- The launches that were asked for: the address and the listener of each. -/
def spawns (t : Turn) : List (String × Listener) :=
  t.asked.filterMap fun
    | .spawn address l _ => some (address, l)
    | _ => none

/-- The listeners that were to be closed. -/
def closes (t : Turn) : List Listener :=
  t.asked.filterMap fun
    | .close l _ => some l
    | _ => none

/-- A replacement was launched for a process that is to retire. -/
def Retires (t : Turn) : Prop :=
  t.call = .handle .reloadRetire ∧ ∃ address l child, .spawn address l (.ok child) ∈ t.asked

/-- A shutdown was asked for. -/
def Ends (t : Turn) : Prop := t.call = .handle .shutdown

/-- The listener is to be given up: the turn `Retires`, or it `Ends` a coordinator that serves. -/
def Releases (t : Turn) : Prop := t.Retires ∨ t.Ends ∧ t.before.phase = .serving

/-- A reload was asked for while there was a listener and no end. -/
def Reloads (t : Turn) : Prop :=
  (t.call = .handle .reloadRetire ∨ t.call = .handle .reloadCoexist) ∧
    t.before.phase = .serving ∧ t.before.listener.isSome

instance (t : Turn) : Decidable t.Reloads := inferInstanceAs (Decidable (_ ∧ _))

end Turn

/-! ## One move -/

/-- A reader `f` of requests that passes over polls finds nothing among polls. -/
theorem filterMap_of_polls {α : Type} {asked : List Invocation} {f : Invocation → Option α}
    (h : ∀ i ∈ asked, ∃ child result, i = .poll child result)
    (hf : ∀ child result, f (.poll child result) = none) : asked.filterMap f = [] := by
  refine List.filterMap_eq_nil_iff.mpr fun i hi => ?_
  obtain ⟨child, result, rfl⟩ := h i hi
  exact hf child result

namespace Coordinator.Move

variable {c c' : Coordinator} {k : Call} {asked : List Invocation}

theorem address (hm : c.Move k asked c') : c'.address = c.address := by
  cases hm <;> rfl

/-- The phase is `terminated` after a shutdown, and stays it. -/
theorem terminated_iff (hm : c.Move k asked c') :
    c'.phase = .terminated ↔ c.phase = .terminated ∨ Turn.Ends ⟨k, c, asked⟩ := by
  cases hm <;> simp_all [Turn.Ends]

/-- A launch is asked for by each turn that `Reloads`, and by no other. -/
theorem spawns (hm : c.Move k asked c') :
    Turn.spawns ⟨k, c, asked⟩ =
      if Turn.Reloads ⟨k, c, asked⟩ then c.listener.toList.map (c.address, ·) else [] := by
  cases hm with
  | reaped hpoll =>
    rw [if_neg (by simp [Turn.Reloads])]
    exact filterMap_of_polls hpoll fun _ _ => rfl
  | @failed request _ _ hp hl hr =>
    cases request with
    | shutdown => exact (hr rfl).elim
    | _ => simp [Turn.spawns, Turn.Reloads, hp, hl]
  | _ => simp_all [Turn.spawns, Turn.Reloads]

/-- In a turn that `Releases`, the listener goes and is closed, and the token is cancelled. -/
theorem of_releases (hm : c.Move k asked c') (hr : Turn.Releases ⟨k, c, asked⟩) :
    c'.listener = none ∧ c'.stopped = true ∧ Turn.closes ⟨k, c, asked⟩ = c.listener.toList := by
  cases hm <;> simp_all [Turn.closes, Turn.Releases, Turn.Ends, Turn.Retires]

/-- In a call that does not release, `listener` and `stopped` stay, and nothing is closed. -/
theorem of_not_releases (hm : c.Move k asked c') (hr : ¬ Turn.Releases ⟨k, c, asked⟩) :
    c'.listener = c.listener ∧ c'.stopped = c.stopped ∧ Turn.closes ⟨k, c, asked⟩ = [] := by
  cases hm with
  | reaped hpoll => exact ⟨rfl, rfl, filterMap_of_polls hpoll fun _ _ => rfl⟩
  | _ => simp_all [Turn.closes, Turn.Releases, Turn.Ends, Turn.Retires]

end Coordinator.Move

/-! ## Whole runs -/

/-- The `turns` of a run so far, and what they have come to. -/
structure History (σ : Type) where
  turns : List Turn
  coordinator : Coordinator
  state : σ

namespace History

variable {σ : Type}

def start (c : Coordinator) (s : σ) : History σ := ⟨[], c, s⟩

/-- One more call `k`. -/
def next (w : Surroundings σ) (h : History σ) (k : Call) : History σ :=
  let t := h.coordinator.perform w h.state k
  ⟨h.turns ++ [⟨k, h.coordinator, h.coordinator.asked w h.state k⟩], t.coordinator, t.state⟩

/-- Some more `calls`, one after the other. -/
def after (w : Surroundings σ) (h : History σ) (calls : List Call) : History σ :=
  calls.foldl (next w) h

/-- The listeners that were to be closed so far. -/
def closes (h : History σ) : List Listener := h.turns.flatMap Turn.closes

/-- Listener, stop token, phase and requests agree, for the coordinator of a listener `l`. -/
structure Coherent (address : String) (l : Listener) (h : History σ) : Prop where
  address_eq : h.coordinator.address = address
  /-- The listener is there until the token is cancelled. -/
  listener_eq : h.coordinator.listener = if h.coordinator.stopped then none else some l
  /-- The token is cancelled by a replacement and by a shutdown. -/
  stopped_iff : h.coordinator.stopped = true ↔ ∃ t ∈ h.turns, t.Retires ∨ t.Ends
  terminated_iff : h.coordinator.phase = .terminated ↔ ∃ t ∈ h.turns, t.Ends
  /-- Launches are asked for by reloads, once by each. -/
  spawns_eq : ∀ t ∈ h.turns, t.spawns = if t.Reloads then [(address, l)] else []
  /-- The listener is closed once, when it goes. -/
  closes_eq : h.closes = if h.coordinator.stopped then [l] else []

variable {address : String} {l : Listener} {h : History σ} {w : Surroundings σ}

theorem coherent_start (address : String) (l : Listener) (s : σ) :
    Coherent address l (start (.ofListener address l) s) := by
  constructor <;> simp [start, Coordinator.ofListener, History.closes]

theorem exists_mem_concat {P : Turn → Prop} {ts : List Turn} {t : Turn} :
    (∃ u ∈ ts ++ [t], P u) ↔ (∃ u ∈ ts, P u) ∨ P t := by
  simp [or_and_right, exists_or]

theorem closes_concat (h : History σ) (t : Turn) (c : Coordinator) (s : σ) :
    closes ⟨h.turns ++ [t], c, s⟩ = h.closes ++ t.closes := by
  simp [closes]

/-- After the end (`.terminated`) the token is cancelled. -/
theorem Coherent.stopped_of_terminated (hi : Coherent address l h)
    (hp : h.coordinator.phase = .terminated) : h.coordinator.stopped = true := by
  obtain ⟨t, ht, he⟩ := hi.terminated_iff.mp hp
  exact hi.stopped_iff.mpr ⟨t, ht, .inr he⟩

/-- Every launch is for the `address` and the listener `l` of the start. -/
theorem Coherent.spawns_move {k : Call} {asked : List Invocation} {c : Coordinator}
    (hi : Coherent address l h) (hm : h.coordinator.Move k asked c) :
    Turn.spawns ⟨k, h.coordinator, asked⟩ =
      if Turn.Reloads ⟨k, h.coordinator, asked⟩ then [(address, l)] else [] := by
  rw [hm.spawns, hi.address_eq]
  by_cases hr : Turn.Reloads ⟨k, h.coordinator, asked⟩
  · have hl := hr.2.2
    simp only [hi.listener_eq] at hl ⊢
    cases hs : h.coordinator.stopped with
    | true => simp [hs] at hl
    | false => simp [hr]
  · simp [hr]

/-- One `Move` keeps everything in agreement. -/
theorem Coherent.move {k : Call} {asked : List Invocation} {c : Coordinator}
    (hi : Coherent address l h) (hm : h.coordinator.Move k asked c) (s : σ) :
    Coherent address l ⟨h.turns ++ [⟨k, h.coordinator, asked⟩], c, s⟩ := by
  have hterm : c.phase = .terminated ↔
      ∃ t ∈ h.turns ++ [⟨k, h.coordinator, asked⟩], t.Ends := by
    rw [exists_mem_concat, ← hi.terminated_iff]
    exact hm.terminated_iff
  have hspawns : ∀ t ∈ h.turns ++ [⟨k, h.coordinator, asked⟩],
      t.spawns = if t.Reloads then [(address, l)] else [] := by
    intro t ht
    rcases List.mem_append.mp ht with ht | ht
    · exact hi.spawns_eq t ht
    · cases List.mem_singleton.mp ht; exact hi.spawns_move hm
  have haddr := hm.address.trans hi.address_eq
  -- Listener and token change together, in the turns that release, so the rest is shown for these
  -- and for the others.
  by_cases hr : Turn.Releases ⟨k, h.coordinator, asked⟩
  · obtain ⟨hl, hs, hc⟩ := hm.of_releases hr
    refine ⟨haddr, ?_, ?_, hterm, hspawns, ?_⟩
    · simp only [hl, hs, if_true]
    · refine iff_of_true hs (exists_mem_concat.mpr (.inr ?_))
      exact hr.imp id And.left
    · rw [closes_concat, hc, hi.closes_eq, hi.listener_eq, hs]
      cases h.coordinator.stopped <;> rfl
  · obtain ⟨hl, hs, hc⟩ := hm.of_not_releases hr
    refine ⟨haddr, ?_, ?_, hterm, hspawns, ?_⟩
    · simp only [hl, hs, hi.listener_eq]
    · simp only [hs]
      rw [exists_mem_concat, ← hi.stopped_iff]
      refine ⟨.inl, fun h' => h'.elim id fun h' => ?_⟩
      -- What asks for a release without one is a shutdown after the end.
      rcases h' with hret | hend
      · exact (hr (.inl hret)).elim
      · refine hi.stopped_of_terminated ?_
        cases hp : h.coordinator.phase with
        | terminated => rfl
        | serving => exact (hr (.inr ⟨hend, hp⟩)).elim
    · rw [closes_concat, hc, List.append_nil, hi.closes_eq, hs]

/-- **Step.** Every call `k` keeps everything in agreement. -/
theorem Coherent.next (hi : Coherent address l h) (w : Surroundings σ) (k : Call) :
    Coherent address l (h.next w k) :=
  hi.move (h.coordinator.move_perform w h.state k) _

theorem after_cons (w : Surroundings σ) (h : History σ) (k : Call) (calls : List Call) :
    h.after w (k :: calls) = (h.next w k).after w calls := rfl

/-- **Run.** And so does every sequence of `calls`. -/
theorem Coherent.after (hi : Coherent address l h) (w : Surroundings σ) (calls : List Call) :
    Coherent address l (h.after w calls) := by
  induction calls generalizing h with
  | nil => exact hi
  | cons k calls ih => exact ih (hi.next w k)

/-! ## From the start -/

theorem calls_after (w : Surroundings σ) (h : History σ) (calls : List Call) :
    (h.after w calls).turns.map Turn.call = h.turns.map Turn.call ++ calls := by
  induction calls generalizing h with
  | nil => simp [History.after]
  | cons k calls ih =>
    rw [after_cons, ih]
    simp [History.next]

theorem after_append (w : Surroundings σ) (h : History σ) (calls more : List Call) :
    h.after w (calls ++ more) = (h.after w calls).after w more :=
  List.foldl_append ..

theorem exists_ends_iff {ts : List Turn} :
    (∃ t ∈ ts, t.Ends) ↔ .handle .shutdown ∈ ts.map Turn.call := by
  simp [Turn.Ends]

/-- The phase tells whether a shutdown was among the `calls`. -/
theorem terminated_after_iff (w : Surroundings σ) (address : String) (l : Listener) (s : σ)
    (calls : List Call) :
    ((start (.ofListener address l) s).after w calls).coordinator.phase = .terminated ↔
      .handle .shutdown ∈ calls := by
  have hi := (coherent_start address l s).after w calls
  rw [hi.terminated_iff, exists_ends_iff, calls_after]
  simp [start]

/-- **Coherence.** However a coordinator of `l` is called, and whatever its surroundings `w` answer:
* the listener is held exactly while the token is not cancelled, which is as long as no turn
  `Retires` or `Ends`;
* the phase is `terminated` exactly if a shutdown was asked for, and stays it;
* a launch is asked for once, for `address` and `l`, by each turn that `Reloads`, and by no other;
* no listener but `l` is to be closed, at most once, and once exactly if it is gone. -/
theorem coherent_run (w : Surroundings σ) (address : String) (l : Listener) (s : σ)
    (calls : List Call) :
    let h := (start (.ofListener address l) s).after w calls
    let c := h.coordinator
    h.turns.map Turn.call = calls ∧
    (c.listener.isSome ↔ c.stopped = false) ∧
    (c.listener.isSome ↔ ¬ ∃ t ∈ h.turns, t.Retires ∨ t.Ends) ∧
    (c.phase = .terminated ↔ .handle .shutdown ∈ calls) ∧
    (c.phase = .terminated → ∀ more, (h.after w more).coordinator.phase = .terminated) ∧
    (∀ t ∈ h.turns, t.spawns = if t.Reloads then [(address, l)] else []) ∧
    (∀ x ∈ h.closes, x = l) ∧ h.closes.length ≤ 1 ∧
    (h.closes.length = 1 ↔ c.listener = none) := by
  intro h c
  have hi : Coherent address l h := (coherent_start address l s).after w calls
  -- The invariant `hi` gives the listener and the closings as functions of `stopped`, and `stopped`
  -- as what the turns have released.
  have hheld : c.listener.isSome ↔ c.stopped = false := by
    rw [hi.listener_eq]
    cases h.coordinator.stopped <;> simp
  refine ⟨?_, hheld, ?_, terminated_after_iff .., ?_, hi.spawns_eq, ?_, ?_, ?_⟩
  · rw [calls_after]
    rfl
  · rw [hheld, ← hi.stopped_iff, Bool.not_eq_true]
  · intro hp more
    have hmem := (terminated_after_iff w address l s calls).mp hp
    rw [← after_append]
    exact (terminated_after_iff ..).mpr (List.mem_append_left more hmem)
  all_goals
    simp only [c, hi.closes_eq, hi.listener_eq]
    cases h.coordinator.stopped <;> simp

end History

end Handoff
