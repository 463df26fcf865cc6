import Handoff.Echo.Server
import Mathlib.Data.List.Nodup

/-!
# The accounts of the connections

Every connection that a server takes is counted and served, and it stays counted as long as it is
served. What was taken is read off the queue, what has ended off the connections that are served,
and neither of them off the count.

* `Mark`: a connection is taken, or the work on it ends.
* `EchoServer.taken`, `EchoServer.finished`: the marks of a step.
* `EchoServer.Accounted`: the accounts of a server agree with all marks so far.
* `EchoServer.Accounted.accept`, `EchoServer.Accounted.serve`: and they do so after each step.
-/

namespace Handoff

/-- A mark on the way of a connection `id` through a server. -/
inductive Mark where
  /-- The connection is taken from the queue. -/
  | begins (id : Nat)
  /-- The work on the connection ends. -/
  | ends (id : Nat)
  deriving DecidableEq, Repr

namespace Mark

/-- A connection that `begins` takes a guard of the `Tracker`, and one that `ends` releases it. -/
def change : Mark → Change
  | .begins _ => .guard
  | .ends _ => .release

def begun (ms : List Mark) : List Nat :=
  ms.filterMap fun
    | .begins id => some id
    | .ends _ => none

def ended (ms : List Mark) : List Nat :=
  ms.filterMap fun
    | .begins _ => none
    | .ends id => some id

@[simp] theorem begun_append (ms ns : List Mark) : begun (ms ++ ns) = begun ms ++ begun ns :=
  List.filterMap_append

@[simp] theorem ended_append (ms ns : List Mark) : ended (ms ++ ns) = ended ms ++ ended ns :=
  List.filterMap_append

/-- The count that the marks `ms` lead to from `t`. -/
def tally (t : Tracker) (ms : List Mark) : Tracker := (ms.map change).foldl Change.apply t

@[simp] theorem tally_append (t : Tracker) (ms ns : List Mark) :
    tally t (ms ++ ns) = tally (tally t ms) ns := by
  simp [tally]

end Mark

namespace EchoServer

/-- The numbers of the connections that wait. -/
def queue (e : EchoServer) : List Nat := e.waiting.map (·.1)

/-- The numbers of the connections that are served. -/
def tasks (e : EchoServer) : List Nat := e.connections.map (·.id)

/-- The marks of a step from `e` to `e'` that takes connections: they have left the front of the
`queue`. -/
def taken (e e' : EchoServer) : List Mark :=
  (e.queue.take (e.queue.length - e'.queue.length)).map .begins

/-- The marks of a step from `e` to `e'` that works on connections: those that `e'` has no more
among its `tasks`. -/
def finished (e e' : EchoServer) : List Mark :=
  (e.tasks.filter fun id => !e'.tasks.contains id).map .ends

/-! ## What the steps do -/

/-- `accept` takes the first connection of the `waiting` ones, or nothing. -/
theorem accept_cases (e : EchoServer) :
    (e.accept.1 = e ∧ e.taken e.accept.1 = []) ∨
      ∃ id peer rest, e.accepting = true ∧ e.waiting = (id, peer) :: rest ∧
        e.accept.1 = { e with
          waiting := rest
          connections := e.connections ++ [{ id := id, peer := peer, echo := { label := e.label } }]
          tracker := e.tracker.guard } ∧
        e.taken e.accept.1 = [.begins id] := by
  unfold accept
  split
  · rename_i id peer rest ha hw
    exact .inr ⟨id, peer, rest, ha, hw, rfl, by simp [taken, queue, hw]⟩
  · exact .inl ⟨rfl, by simp [taken]⟩

theorem tasks_modify (e : EchoServer) (id : Nat) {f : Connection → Connection}
    (hf : ∀ c, (f c).id = c.id) : (e.modify id f).tasks = e.tasks := by
  simp only [tasks, modify, List.map_map]
  refine List.map_congr_left fun c _ => ?_
  by_cases h : c.id = id <;> simp [h, hf]

theorem tasks_forget (e : EchoServer) (id : Nat) :
    (e.forget id).tasks = e.tasks.filter (· != id) := by
  simp [tasks, forget, List.filter_map, Function.comp_def]

/-- `serve` leaves all connections in place, or it forgets the one with the number `id`. -/
theorem serve_cases (e : EchoServer) (id : Nat) :
    ((e.serve id).1.tasks = e.tasks ∧ (e.serve id).1.waiting = e.waiting ∧
      (e.serve id).1.tracker = e.tracker ∧ (e.serve id).1.accepting = e.accepting) ∨
      id ∈ e.tasks ∧ (e.serve id).1 = e.forget id := by
  unfold serve
  split
  · exact .inl ⟨rfl, rfl, rfl, rfl⟩
  · rename_i c hc
    cases hw : c.work.ending with
    | some ending =>
      refine .inr ⟨List.mem_map.mpr ⟨c, List.mem_of_find?_eq_some hc, ?_⟩, by simp [hw]⟩
      simpa using List.find?_some hc
    | none =>
      simp only [hw]
      exact .inl ⟨tasks_modify e id fun _ => rfl, rfl, rfl, rfl⟩

theorem finished_of_tasks_eq {e e' : EchoServer} (h : e'.tasks = e.tasks) : e.finished e' = [] := by
  simp [finished, h]

/-- To forget a connection of the `tasks` is the end of that one and of no other. -/
theorem finished_forget {e : EchoServer} {id : Nat} (hn : e.tasks.Nodup) (hid : id ∈ e.tasks) :
    e.finished (e.forget id) = [.ends id] := by
  have hone : (e.tasks.filter fun k => !(e.forget id).tasks.contains k) = [id] :=
    calc e.tasks.filter (fun k => !(e.forget id).tasks.contains k)
      _ = e.tasks.filter (· == id) := by
        refine List.filter_congr fun k hk => ?_
        by_cases h : k = id <;> simp [tasks_forget, hk, h]
      _ = [id] := by rw [List.filter_beq, List.count_eq_one_of_mem hn hid]; rfl
  rw [finished, hone]
  rfl

/-! ## Accounts -/

/-- The accounts of `e` agree with the marks `ms` so far, after `clients` many clients have
connected. -/
structure Accounted (e : EchoServer) (clients : Nat) (ms : List Mark) : Prop where
  /-- What was taken is served, or the work on it has ended: each connection is one of both, and
  once. -/
  perm : (e.tasks ++ Mark.ended ms).Perm (Mark.begun ms)
  /-- No connection is taken twice, and none that was taken waits. -/
  nodup : (Mark.begun ms ++ e.queue).Nodup
  /-- All of them are of clients that have connected. -/
  lt_clients : ∀ id ∈ Mark.begun ms ++ e.queue, id < clients
  active_eq : e.tracker.active = e.tasks.length
  /-- The count went up once for each connection that was taken, and down once for each end. -/
  tracker_eq : e.tracker = Mark.tally {} ms

namespace Accounted

variable {e e' : EchoServer} {clients : Nat} {ms : List Mark}

theorem start (label : List UInt8) : Accounted (start label).1 0 [] :=
  ⟨.refl _, .nil, by simp [EchoServer.start, queue, Mark.begun], rfl, rfl⟩

theorem nodup_tasks (h : e.Accounted clients ms) : e.tasks.Nodup :=
  (h.perm.nodup_iff.mpr h.nodup.of_append_left).of_append_left

/-- If the `tracker` counts none, the work has ended on all connections that were taken. -/
theorem perm_of_idle (h : e.Accounted clients ms) (hzero : e.tracker.active = 0) :
    (Mark.ended ms).Perm (Mark.begun ms) := by
  have hnil : e.tasks = [] := List.eq_nil_of_length_eq_zero (h.active_eq ▸ hzero)
  have hperm := h.perm
  rwa [hnil, List.nil_append] at hperm

/-- The accounts stay in order if the `tasks` and the `tracker` are the same and no connection joins
the `queue`. -/
theorem congr (h : e.Accounted clients ms) (htasks : e'.tasks = e.tasks)
    (hqueue : e'.queue.Sublist e.queue) (htracker : e'.tracker = e.tracker) :
    e'.Accounted clients ms where
  perm := htasks ▸ h.perm
  nodup := h.nodup.sublist (hqueue.append_left _)
  lt_clients id hid := h.lt_clients id ((hqueue.append_left _).subset hid)
  active_eq := by rw [htracker, htasks, h.active_eq]
  tracker_eq := htracker.trans h.tracker_eq

/-- One more client connects, with the number `clients`. -/
theorem connect (h : e.Accounted clients ms) (peer : String) :
    (e.connect clients peer).Accounted (clients + 1) ms := by
  have hqueue : Mark.begun ms ++ (e.connect clients peer).queue =
      (Mark.begun ms ++ e.queue) ++ [clients] := by
    simp [EchoServer.connect, queue]
  refine ⟨h.perm, ?_, ?_, h.active_eq, h.tracker_eq⟩
  · rw [hqueue]
    refine List.nodup_append.mpr ⟨h.nodup, List.nodup_singleton _, fun id hid k hk => ?_⟩
    cases List.mem_singleton.mp hk
    exact Nat.ne_of_lt (h.lt_clients id hid)
  · rw [hqueue]
    intro id hid
    rcases List.mem_append.mp hid with hid | hid
    · exact Nat.lt_succ_of_lt (h.lt_clients id hid)
    · cases List.mem_singleton.mp hid
      exact Nat.lt_succ_self _

/-- **Step.** A connection that is `taken` is counted once and served once. -/
theorem accept (h : e.Accounted clients ms) :
    e.accept.1.Accounted clients (ms ++ e.taken e.accept.1) := by
  rcases e.accept_cases with ⟨he, ht⟩ | ⟨id, peer, rest, -, hw, he, ht⟩
  · rw [ht, he, List.append_nil]
    exact h
  · rw [ht]
    have htasks : e.accept.1.tasks = e.tasks ++ [id] := by simp [he, tasks]
    have hbegun : Mark.begun (ms ++ [.begins id]) = Mark.begun ms ++ [id] := by simp [Mark.begun]
    have hended : Mark.ended (ms ++ [.begins id]) = Mark.ended ms := by simp [Mark.ended]
    have hqueue : Mark.begun (ms ++ [.begins id]) ++ e.accept.1.queue =
        Mark.begun ms ++ e.queue := by
      simp [hbegun, he, queue, hw]
    refine ⟨?_, ?_, ?_, ?_, ?_⟩
    · rw [htasks, hended, hbegun]
      have hmove : (e.tasks ++ [id] ++ Mark.ended ms).Perm (e.tasks ++ Mark.ended ms ++ [id]) := by
        simp only [List.append_assoc]
        exact List.perm_append_comm.append_left _
      exact hmove.trans (h.perm.append_right _)
    · rw [hqueue]
      exact h.nodup
    · rw [hqueue]
      exact h.lt_clients
    · rw [htasks, List.length_append, ← h.active_eq, he]
      rfl
    · simp [he, h.tracker_eq, Mark.tally, Mark.change, Change.apply]

/-- **Step.** A connection that is `finished` is no longer counted, and no other is left out. -/
theorem serve (h : e.Accounted clients ms) (id : Nat) :
    (e.serve id).1.Accounted clients (ms ++ e.finished (e.serve id).1) := by
  rcases e.serve_cases id with ⟨htasks, hwaiting, htracker, -⟩ | ⟨hid, he⟩
  · rw [finished_of_tasks_eq htasks, List.append_nil]
    exact h.congr htasks (by simp [queue, hwaiting]) htracker
  · rw [he, finished_forget h.nodup_tasks hid]
    have htasks : (e.forget id).tasks = e.tasks.erase id := by
      rw [tasks_forget, h.nodup_tasks.erase_eq_filter]
    have hbegun : Mark.begun (ms ++ [.ends id]) = Mark.begun ms := by simp [Mark.begun]
    have hended : Mark.ended (ms ++ [.ends id]) = Mark.ended ms ++ [id] := by simp [Mark.ended]
    refine ⟨?_, ?_, ?_, ?_, ?_⟩
    · rw [htasks, hbegun, hended]
      -- The ended connection moves from the `tasks` to the ended ones, so their union stays.
      have hmove : (e.tasks.erase id ++ (Mark.ended ms ++ [id])).Perm
          (id :: e.tasks.erase id ++ Mark.ended ms) := by
        rw [← List.append_assoc]
        exact List.perm_append_singleton ..
      exact hmove.trans (((List.perm_cons_erase hid).symm.append_right _).trans h.perm)
    · rw [hbegun]
      exact h.nodup
    · rw [hbegun]
      exact h.lt_clients
    · show e.tracker.active - 1 = _
      rw [htasks, List.length_erase_of_mem hid, h.active_eq]
    · simp [forget, h.tracker_eq, Mark.tally, Mark.change, Change.apply]

end Accounted

end EchoServer

end Handoff
