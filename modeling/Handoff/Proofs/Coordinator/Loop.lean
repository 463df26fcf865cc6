import Handoff.Coordinator.Run
import Handoff.Program
import Handoff.Proofs.Acquire
import Handoff.Proofs.Coordinator.Order

/-!
# The control loop handles what it receives

Requests, the end of the channel and ticks of the clock wake the loop up in any order. Whatever the
order, the loop makes single calls, and of those only the requests matter: the children that are
looked at on the way are forgotten or not, and nothing else comes of it.

* `Channel`, `Channel.Interleaves`: what is put into a channel, and the wake-ups that come of it.
* `Coordinator.loop_eq_after`: the loop is a sequence of calls, up to the first shutdown.
* `Surroundings.Separates`: what launches and closings depend on is not what polls change. Whatever
  has a state of its own is of this kind (`Surroundings.separates_beside`), and so is a process
  (`System.separates_surroundings`).
* `Surroundings.Separates.after_eq`: the polls in between can be left out.
* `Coordinator.run_received`: the loop does what the requests do that it received.
-/

namespace Handoff

/-! ## The channel -/

/-- What becomes of the channel of a loop: `requests` are put into it, and with `closes` its other
end goes away behind them. -/
structure Channel where
  /-- The requests that are put into it, in order. -/
  requests : List Signal
  /-- Whether its other end goes away behind them. -/
  closes : Bool
  deriving DecidableEq, Repr

namespace Wake

/-- The request that a wake-up stands for; the end of the channel is a shutdown. -/
def signal? : Wake → Option Signal
  | .request r => some r
  | .closed => some .shutdown
  | .tick => none

/-- The calls that the loop makes when it is woken up: `.reap` first, but for the end of the
channel. -/
def calls : Wake → List Call
  | .request r => [.reap, .handle r]
  | .closed => [.handle .shutdown]
  | .tick => [.reap]

/-- The wake-ups up to the first with the signal `.shutdown`, and those behind it. -/
def cut : List Wake → List Wake × List Wake
  | [] => ([], [])
  | k :: ks => if k.signal? = some .shutdown then ([k], ks) else (k :: (cut ks).1, (cut ks).2)

end Wake

def Call.request? : Call → Option Signal
  | .handle r => some r
  | .reap => none

namespace Channel

/-- `wakes` come of the channel `ch`, with ticks anywhere in between. -/
def Interleaves (ch : Channel) (wakes : List Wake) : Prop :=
  wakes.filter (· ≠ .tick) = ch.requests.map .request ++ if ch.closes then [.closed] else []

/-- The requests that a loop takes from `ch`: all up to the first `.shutdown`, and one `.shutdown`
more if the channel closes before there was one. -/
def received (ch : Channel) : List Signal :=
  ch.requests.takeWhile (· ≠ .shutdown) ++
    if .shutdown ∈ ch.requests ∨ ch.closes then [.shutdown] else []

/-- The requests behind the first `.shutdown`. -/
def unread (ch : Channel) : List Signal := (ch.requests.dropWhile (· ≠ .shutdown)).tail

variable {ch : Channel} {wakes : List Wake}

/-- The schedule of a loop that is watched for `timeout` is one of many. -/
theorem interleaves_schedule (ch : Channel) (timeout : Nat) :
    ch.Interleaves (Wake.schedule ch.requests ch.closes timeout) := by
  have hrequests :
      (ch.requests.map Wake.request).filter (· ≠ .tick) = ch.requests.map .request := by
    simp [List.filter_eq_self]
  unfold Interleaves Wake.schedule
  rw [List.filter_append, hrequests]
  cases ch.closes <;> simp

theorem Interleaves.requests_eq (h : ch.Interleaves wakes) :
    wakes.filterMap Wake.request? = ch.requests := by
  have hskip : wakes.filterMap Wake.request? =
      (wakes.filter (· ≠ .tick)).filterMap Wake.request? := by
    rw [List.filterMap_filter]
    congr 1
    funext k
    cases k <;> rfl
  rw [hskip, h]
  cases ch.closes <;> simp [Wake.request?, List.filterMap_map, Function.comp_def]

/-- What the loop takes of `wakes` and what it leaves does not depend on the ticks. -/
theorem Interleaves.cut_eq (h : ch.Interleaves wakes) :
    (Wake.cut wakes).1.filterMap Wake.signal? = ch.received ∧
      (Wake.cut wakes).2.filterMap Wake.request? = ch.unread := by
  obtain ⟨requests, closes⟩ := ch
  -- A tick leaves the channel as it is, and any other wake-up is its first request or its end.
  induction wakes generalizing requests with
  | nil =>
    obtain ⟨hr, hc⟩ := List.append_eq_nil_iff.mp h.symm
    cases List.map_eq_nil_iff.mp hr
    cases closes with
    | false => exact ⟨rfl, rfl⟩
    | true => cases hc
  | cons k ks ih =>
    cases k with
    | tick => exact ih requests h
    | closed =>
      cases requests with
      | cons r rs => simp [Interleaves] at h
      | nil =>
        cases closes with
        | false => simp [Interleaves] at h
        | true =>
          have hks : Channel.Interleaves ⟨[], false⟩ ks := by simpa [Interleaves] using h
          exact ⟨rfl, hks.requests_eq⟩
    | request r =>
      cases requests with
      | nil => cases closes <;> simp [Interleaves] at h
      | cons r' rs =>
        simp only [Interleaves, ne_eq, reduceCtorEq, not_false_eq_true, decide_true,
          List.filter_cons_of_pos, List.map_cons, List.cons_append, List.cons.injEq,
          Wake.request.injEq] at h
        obtain ⟨rfl, h⟩ := h
        by_cases hr : r = .shutdown
        · subst hr
          have hrs : Channel.Interleaves ⟨rs, closes⟩ ks := h
          exact ⟨rfl, hrs.requests_eq⟩
        · obtain ⟨h₁, h₂⟩ := ih rs h
          simp only [received, unread] at h₁ h₂ ⊢
          simp [Wake.cut, Wake.signal?, hr, Ne.symm hr, h₁, h₂]

end Channel

/-! ## The loop as a sequence of calls -/

namespace History

variable {σ : Type} (w : Surroundings σ) (h : History σ)

/-- Everything that was asked for so far, in order. -/
def asked (h : History σ) : List Invocation := h.turns.flatMap Turn.asked

/-- One call ends a run exactly if it is `.handle .shutdown`. -/
theorem phase_next (k : Call) :
    (h.next w k).coordinator.phase = .terminated ↔
      h.coordinator.phase = .terminated ∨ k = .handle .shutdown :=
  (h.coordinator.move_perform w h.state k).terminated_iff

theorem phase_after (calls : List Call) :
    (h.after w calls).coordinator.phase = .terminated ↔
      h.coordinator.phase = .terminated ∨ .handle .shutdown ∈ calls := by
  induction calls generalizing h with
  | nil => simp [after]
  | cons k calls ih =>
    rw [after_cons, ih, phase_next, List.mem_cons, or_assoc, eq_comm (a := k)]

/-- The launches and stops of the calls so far, in order. -/
def deeds (h : History σ) : List Action := h.turns.flatMap Turn.deeds

theorem deeds_next (k : Call) :
    (h.next w k).deeds =
      h.deeds ++ (h.coordinator.perform w h.state k).actions.filter Action.isDeed := by
  rw [Coordinator.deeds_perform]
  simp [deeds, next]

/-- A wake-up is the `calls` that it stands for. -/
theorem after_wake (k : Wake) :
    let t := h.coordinator.wake w h.state k
    (h.after w k.calls).coordinator = t.coordinator ∧ (h.after w k.calls).state = t.state ∧
      (h.after w k.calls).deeds = h.deeds ++ t.actions.filter Action.isDeed := by
  refine ⟨by cases k <;> rfl, by cases k <;> rfl, ?_⟩
  cases k with
  | tick => exact h.deeds_next w .reap
  | closed => exact h.deeds_next w (.handle .shutdown)
  | request r =>
    have hstep : h.after w (Wake.calls (.request r)) = (h.next w .reap).next w (.handle r) := rfl
    rw [hstep, deeds_next, deeds_next, List.append_assoc, ← List.filter_append]
    rfl

end History

theorem Wake.shutdown_mem_calls (k : Wake) :
    .handle .shutdown ∈ k.calls ↔ k.signal? = some .shutdown := by
  cases k <;> simp [Wake.calls, Wake.signal?, eq_comm]

theorem Call.handle_mem_iff {r : Signal} {calls : List Call} :
    .handle r ∈ calls ↔ r ∈ calls.filterMap Call.request? := by
  rw [List.mem_filterMap]
  constructor
  · exact fun h => ⟨.handle r, h, rfl⟩
  · rintro ⟨k, hk, hr⟩
    cases k with
    | reap => cases hr
    | handle r' =>
      cases hr
      exact hk

/-- Something of `ks` is left only behind a shutdown. -/
theorem Wake.shutdown_mem_of_cut_ne_nil {ks : List Wake} (h : (cut ks).2 ≠ []) :
    .shutdown ∈ (cut ks).1.filterMap Wake.signal? := by
  induction ks with
  | nil => exact (h rfl).elim
  | cons k ks ih =>
    by_cases hk : k.signal? = some .shutdown
    · simp [cut, hk]
    · simp only [cut, hk, if_false] at h ⊢
      rw [List.filterMap_cons]
      split
      · exact ih h
      · exact List.mem_cons_of_mem _ (ih h)

theorem Wake.requests_calls (ks : List Wake) :
    (ks.flatMap Wake.calls).filterMap Call.request? = ks.filterMap Wake.signal? := by
  induction ks with
  | nil => rfl
  | cons k ks ih =>
    rw [List.flatMap_cons, List.filterMap_append, ih]
    cases k <;> rfl

namespace Coordinator

variable {σ : Type} (w : Surroundings σ)

theorem loop_of_terminated {c : Coordinator} (hp : c.phase = .terminated) (s : σ)
    (wakes : List Wake) : c.loop w s wakes = (⟨c, s, []⟩, wakes) := by
  cases wakes with
  | nil => rfl
  | cons k ks => rw [loop, hp]

/-- While it serves, the loop makes the `calls` of one wake-up after the other, up to the first
shutdown; by induction on `wakes`. -/
theorem loop_eq_after (h : History σ) (hp : h.coordinator.phase = .serving) (wakes : List Wake) :
    let r := h.coordinator.loop w h.state wakes
    let g := h.after w ((Wake.cut wakes).1.flatMap Wake.calls)
    r.1.coordinator = g.coordinator ∧ r.1.state = g.state ∧ r.2 = (Wake.cut wakes).2 ∧
      h.deeds ++ r.1.actions.filter Action.isDeed = g.deeds := by
  induction wakes generalizing h with
  | nil => exact ⟨rfl, rfl, rfl, List.append_nil _⟩
  | cons k ks ih =>
    obtain ⟨hc, hs, hd⟩ := h.after_wake w k
    have hend : (h.after w k.calls).coordinator.phase = .terminated ↔
        k.signal? = some .shutdown := by
      rw [h.phase_after w, Wake.shutdown_mem_calls, hp]
      simp
    simp only [loop, hp, ← hc, ← hs, List.filter_append, ← List.append_assoc, ← hd]
    -- A shutdown is the last wake-up that is cut off, and it is the one behind which the loop
    -- stops.
    by_cases hk : k.signal? = some .shutdown
    · rw [loop_of_terminated w (hend.mpr hk)]
      simp [Wake.cut, hk]
    · have hserving : (h.after w k.calls).coordinator.phase = .serving :=
        Phase.ne_terminated_iff.mp (mt hend.mp hk)
      simpa [Wake.cut, hk, History.after_append] using ih _ hserving

end Coordinator

/-! ## What the loop asks for -/

namespace Invocation

def isPoll : Invocation → Bool
  | .poll _ _ => true
  | _ => false

end Invocation

/-- What a loop asks its surroundings for, in order. -/
def Coordinator.askedByRun {σ : Type} (c : Coordinator) (w : Surroundings σ) (s : σ)
    (wakes : List Wake) : List Invocation :=
  (c.run w.recording (s, []) wakes).1.state.2

namespace History

variable {σ : Type} {w : Surroundings σ} {h : History σ} {g : History (σ × List Invocation)}

/-- `g` is the run `h` under surroundings that write down what they are asked. -/
structure Recorded (h : History σ) (g : History (σ × List Invocation)) : Prop where
  coordinator_eq : g.coordinator = h.coordinator
  state_eq : g.state = (h.state, h.asked)

theorem recorded_start (c : Coordinator) (s : σ) : Recorded (start c s) (start c (s, [])) :=
  ⟨rfl, rfl⟩

theorem Recorded.next (hr : Recorded h g) (k : Call) :
    Recorded (h.next w k) (g.next w.recording k) := by
  have hstep : g.coordinator.perform w.recording g.state k =
      (h.coordinator.perform w h.state k).logged h.asked (h.coordinator.asked w h.state k) := by
    rw [hr.coordinator_eq, hr.state_eq, Coordinator.perform_recording]
  refine ⟨?_, ?_⟩
  · simp [History.next, hstep, Step.logged]
  · simp [History.next, hstep, Step.logged, asked]

theorem Recorded.after (hr : Recorded h g) (calls : List Call) :
    Recorded (h.after w calls) (g.after w.recording calls) := by
  induction calls generalizing h g with
  | nil => exact hr
  | cons k calls ih => exact ih (hr.next k)

end History

/-! ## What polls have nothing to do with -/

/-- A coordinator but for its children. -/
def Coordinator.childless (c : Coordinator) : Coordinator := { c with children := [] }

theorem Coordinator.eq_of_childless_eq {c c' : Coordinator} (h : c.childless = c'.childless) :
    c' = { c with children := c'.children } :=
  (congrArg (fun x => { x with children := c'.children }) h).symm

/-- `view` is a part of the world that launches and closings depend on, and that polls leave
alone. -/
structure Surroundings.Separates {σ τ : Type} (w : Surroundings σ) (view : σ → τ) : Prop where
  /-- Launches depend on it alone. -/
  spawn_eq : ∀ {s s' : σ} (address : String) (l : Listener), view s = view s' →
    (w.spawn s address l).result = (w.spawn s' address l).result ∧
      view (w.spawn s address l).state = view (w.spawn s' address l).state
  /-- Closings depend on it alone. -/
  close_eq : ∀ {s s' : σ} (l : Listener), view s = view s' →
    (w.close s l).1 = (w.close s' l).1 ∧ view (w.close s l).2 = view (w.close s' l).2
  /-- Polls leave it alone. -/
  poll_eq : ∀ (s : σ) (child : Child), view (w.poll s child).2.2 = view s

/-- The surroundings `w`, with children that are polled elsewhere. -/
def Surroundings.beside {τ ρ : Type} (w : Surroundings τ)
    (poll : ρ → Child → Except IoError (Option ExitStatus) × Child × ρ) : Surroundings (τ × ρ) where
  spawn := fun (s, q) address l =>
    let o := w.spawn s address l
    ⟨o.result, (o.state, q), o.events⟩
  close := fun (s, q) l =>
    let (result, s') := w.close s l
    (result, (s', q))
  name := fun (s, _) l => w.name s l
  poll := fun (s, q) c =>
    let (result, c', q') := poll q c
    (result, c', (s, q'))

/-- The launches and closings of `w` may be anything that has a state of its own. -/
theorem Surroundings.separates_beside {τ ρ : Type} (w : Surroundings τ)
    (poll : ρ → Child → Except IoError (Option ExitStatus) × Child × ρ) :
    (w.beside poll).Separates Prod.fst where
  spawn_eq := by
    rintro ⟨s, q⟩ ⟨s', q'⟩ address l h
    cases h
    exact ⟨rfl, rfl⟩
  close_eq := by
    rintro ⟨s, q⟩ ⟨s', q'⟩ l h
    cases h
    exact ⟨rfl, rfl⟩
  poll_eq := fun _ _ => rfl

/-- What is seen of a step besides the children. -/
def Step.seen {σ τ : Type} (view : σ → τ) (t : Step σ) : Coordinator × τ :=
  (t.coordinator.childless, view t.state)

/-- What is seen of a run besides the children. -/
def History.seen {σ τ : Type} (view : σ → τ) (h : History σ) : Coordinator × τ :=
  (h.coordinator.childless, view h.state)

namespace Surroundings.Separates

variable {σ τ : Type} {w : Surroundings σ} {view : σ → τ} {c : Coordinator} {s s' : σ}

/-- What `w.recording` writes down besides polls can be seen, too. -/
theorem recording (hv : w.Separates view) :
    w.recording.Separates fun p => (view p.1, p.2.filter (!·.isPoll)) where
  spawn_eq := by
    rintro ⟨s, log⟩ ⟨s', log'⟩ address l h
    obtain ⟨hs, hlog⟩ := Prod.mk.inj h
    obtain ⟨hr, ht⟩ := hv.spawn_eq address l hs
    simp [Surroundings.recording, List.filter_append, hr, ht, hlog]
  close_eq := by
    rintro ⟨s, log⟩ ⟨s', log'⟩ l h
    obtain ⟨hs, hlog⟩ := Prod.mk.inj h
    obtain ⟨hr, ht⟩ := hv.close_eq l hs
    simp [Surroundings.recording, List.filter_append, hr, ht, hlog]
  poll_eq := by
    rintro ⟨s, log⟩ child
    simp [Surroundings.recording, List.filter_append, hv.poll_eq, Invocation.isPoll]

theorem release (hv : w.Separates view) (cs : List Child) (hs : view s = view s')
    (reason : Reason) :
    (c.release w s reason).seen view =
      (Coordinator.release w { c with children := cs } s' reason).seen view := by
  simp only [Coordinator.release]
  cases c.listener with
  | none => exact Prod.ext rfl hs
  | some l => exact Prod.ext rfl (hv.close_eq l hs).2

theorem reload (hv : w.Separates view) (cs : List Child) (hs : view s = view s')
    (retire : Bool) :
    (c.reload w s retire).seen view =
      (Coordinator.reload w { c with children := cs } s' retire).seen view := by
  obtain ⟨address, listener, children, phase, stopped⟩ := c
  simp only [Coordinator.reload]
  cases listener with
  | none => exact Prod.ext rfl hs
  | some l =>
    obtain ⟨hr, ht⟩ := hv.spawn_eq address l hs
    simp only [← hr]
    cases (w.spawn s address l).result with
    | error e => exact Prod.ext rfl ht
    | ok child =>
      cases retire with
      | false => exact Prod.ext rfl ht
      | true => exact hv.release (cs ++ [child]) ht .retire

/-- A request does the same to what is `seen`, whatever children there are. -/
theorem handle (hv : w.Separates view) (cs : List Child) (hs : view s = view s')
    (request : Signal) :
    (c.handle w s request).seen view =
      (Coordinator.handle w { c with children := cs } s' request).seen view := by
  by_cases hp : c.phase = .terminated
  · rw [Coordinator.handle_terminated w c s hp,
      Coordinator.handle_terminated w { c with children := cs } s' hp]
    exact Prod.ext rfl hs
  · replace hp := Phase.ne_terminated_iff.mp hp
    by_cases hr : request = .shutdown
    · subst hr
      obtain ⟨hcoord, hview⟩ := Prod.mk.inj (hv.release (c := c) cs hs .shutdown)
      rw [Coordinator.handle_shutdown w c s hp,
        Coordinator.handle_shutdown w { c with children := cs } s' hp]
      exact Prod.ext (congrArg (fun c => { c with phase := .terminated }) hcoord) hview
    · rw [Coordinator.handle_reload w c s hp hr,
        Coordinator.handle_reload w { c with children := cs } s' hp hr]
      exact hv.reload (c := c) cs hs _

/-- A round of polls is not seen through `view`. -/
theorem pollAll (hv : w.Separates view) (s : σ) (cs : List Child) :
    view (Coordinator.pollAll w s cs).2.1 = view s := by
  induction cs generalizing s with
  | nil => rfl
  | cons child cs ih =>
    have hpoll := (ih (w.poll s child).2.2).trans (hv.poll_eq s child)
    rw [← hpoll]
    rcases hp : w.poll s child with ⟨_ | _ | status, child', s'⟩ <;>
      simp [Coordinator.pollAll, hp]

theorem reap (hv : w.Separates view) (c : Coordinator) (s : σ) :
    (c.reap w s).seen view = (c.childless, view s) :=
  Prod.ext rfl (hv.pollAll s c.children)

variable {h g : History σ}

/-- **Step.** A call that handles a `request` is seen, one that polls is not. -/
theorem next_handle (hv : w.Separates view) (hs : h.seen view = g.seen view) (request : Signal) :
    (h.next w (.handle request)).seen view = (g.next w (.handle request)).seen view := by
  obtain ⟨hcoord, hview⟩ := Prod.mk.inj hs
  have hg : g.coordinator = { h.coordinator with children := g.coordinator.children } :=
    Coordinator.eq_of_childless_eq hcoord
  have hstep := hv.handle (c := h.coordinator) g.coordinator.children hview request
  rw [← hg] at hstep
  exact hstep

theorem next_reap (hv : w.Separates view) (h : History σ) :
    (h.next w .reap).seen view = h.seen view :=
  hv.reap h.coordinator h.state

/-- **Run.** The polls between the requests can be left out of `calls`. -/
theorem after_eq (hv : w.Separates view) (hs : h.seen view = g.seen view) (calls : List Call) :
    (h.after w calls).seen view =
      (g.after w ((calls.filterMap Call.request?).map .handle)).seen view := by
  induction calls generalizing h g with
  | nil => exact hs
  | cons k calls ih =>
    cases k with
    | handle request => exact ih (hv.next_handle hs request)
    | reap => exact ih ((hv.next_reap h).trans hs)

end Surroundings.Separates

namespace System

/-- The system without the other processes. -/
def alone (s : System) : System := { s with others := [] }

theorem eq_of_alone_eq {s s' : System} (h : s.alone = s'.alone) :
    s' = { s with others := s'.others } :=
  (congrArg (fun x => { x with others := s'.others }) h).symm

variable (s : System) (ps : List Process)

theorem exportAs_others (l : Listener) (address : String) :
    l.exportAs { s with others := ps } address =
      ((l.exportAs s address).1, { (l.exportAs s address).2 with others := ps }) := by
  have hfds : System.fds { s with others := ps } = s.fds := rfl
  simp only [Listener.exportAs, hfds]
  cases l.streamFd? with
  | none => rfl
  | some fd =>
    cases hd : s.fds.dupAbove fd exportFloor with
    | error e => simp only [hd]
    | ok x =>
      simp only [hd]
      rfl

theorem launch_others (p : SpawnPlan) :
    (p.launch { s with others := ps }).1 = (p.launch s).1 ∧
      (p.launch { s with others := ps }).2.alone = (p.launch s).2.alone := by
  have hchild : p.child { s with others := ps } = p.child s := rfl
  unfold SpawnPlan.launch
  rw [hchild]
  split
  · exact ⟨rfl, rfl⟩
  · cases p.child s <;> exact ⟨rfl, rfl⟩

theorem spawnExported_others (address : String) (d : Descriptor) (handle : Int) :
    (spawnExported { s with others := ps } address d handle).result =
        (s.spawnExported address d handle).result ∧
      (spawnExported { s with others := ps } address d handle).state.alone =
        (s.spawnExported address d handle).state.alone := by
  have hplan : replacementPlan { s with others := ps } d handle = s.replacementPlan d handle := rfl
  unfold spawnExported
  rw [hplan]
  cases s.replacementPlan d handle with
  | error e => exact ⟨rfl, rfl⟩
  | ok plan =>
    obtain ⟨hr, ht⟩ := s.launch_others ps plan
    rcases hl : plan.launch s with ⟨e | child, s'⟩ <;>
      rcases hl' : plan.launch { s with others := ps } with ⟨e' | child', s''⟩ <;>
        simp_all

theorem alone_of_collect {s s' : System} {pid : Nat} {st : Option ExitStatus}
    (h : s.collect pid = .ok (st, s')) : s'.alone = s.alone := by
  unfold System.collect at h
  split at h
  · cases h
  · split at h <;> cases h <;> rfl

/-- A process launches and closes without regard to `others`, and a poll at most collects one of
them. -/
theorem separates_surroundings : surroundings.Separates alone where
  spawn_eq := by
    intro s s' address l h
    rw [eq_of_alone_eq h]
    simp only [surroundings, spawnReplacement, exportAs_others]
    rcases hx : l.exportAs s address with ⟨e | ⟨d, handle⟩, t⟩
    · exact ⟨rfl, rfl⟩
    · obtain ⟨hr, ht⟩ := t.spawnExported_others s'.others address d handle
      exact ⟨hr.symm, congrArg (·.drop handle) ht.symm⟩
  close_eq := by
    intro s s' l h
    rw [eq_of_alone_eq h]
    have hfds : System.fds { s with others := s'.others } = s.fds := rfl
    simp only [surroundings, Listener.close, System.close, hfds]
    cases s.fds.close l.fd <;> exact ⟨rfl, rfl⟩
  poll_eq := by
    intro s child
    simp only [surroundings, Child.poll]
    split
    · rfl
    · split
      · rfl
      · cases hc : s.collect child.pid with
        | error e => rfl
        | ok x => exact alone_of_collect hc

end System

/-! ## A whole run -/

theorem Coordinator.Move.not_isPoll {c c' : Coordinator} {r : Signal} {asked : List Invocation}
    (hm : c.Move (.handle r) asked c') : ∀ i ∈ asked, i.isPoll = false := by
  cases hm <;> simp [Invocation.isPoll]

/-- Handling `requests` alone asks for no polls. -/
theorem History.not_isPoll_of_handles {σ : Type} (w : Surroundings σ) (h : History σ)
    (hh : ∀ i ∈ h.asked, i.isPoll = false) (requests : List Signal) :
    ∀ i ∈ (h.after w (requests.map .handle)).asked, i.isPoll = false := by
  induction requests generalizing h with
  | nil => exact hh
  | cons r requests ih =>
    refine ih (h.next w (.handle r)) fun i hi => ?_
    simp only [asked, next, List.flatMap_append, List.flatMap_singleton, List.mem_append] at hi
    rcases hi with hi | hi
    · exact hh i hi
    · exact (h.coordinator.move_perform w h.state (.handle r)).not_isPoll i hi

namespace Coordinator

variable {σ : Type} (w : Surroundings σ) (c : Coordinator) (s : σ)

theorem run_of_terminated (hp : c.phase = .terminated) (wakes : List Wake) :
    c.run w s wakes = (⟨c, s, [.report (.waiting c.address)]⟩, wakes) := by
  rw [run, loop_of_terminated w hp]

/-- While it serves, a run is a sequence of `calls` that handle what was received. -/
theorem run_of_serving (hp : c.phase = .serving) (wakes : List Wake) :
    ∃ calls, calls.filterMap Call.request? = (Wake.cut wakes).1.filterMap Wake.signal? ∧
      (c.run w s wakes).2 = (Wake.cut wakes).2 ∧
      let h := (History.start c s).after w calls
      (c.run w s wakes).1.coordinator = h.coordinator ∧ (c.run w s wakes).1.state = h.state ∧
        c.askedByRun w s wakes = h.asked ∧
        (c.run w s wakes).1.actions.filter Action.isDeed = h.deeds := by
  obtain ⟨hc, hs, hrest, hdeeds⟩ := loop_eq_after w (.start c s) hp wakes
  -- The same loop makes the same calls when it is written down.
  obtain ⟨-, hs', -⟩ := loop_eq_after w.recording (.start c (s, [])) hp wakes
  have hrec := (History.recorded_start c s).after (w := w) ((Wake.cut wakes).1.flatMap Wake.calls)
  rw [hrec.state_eq] at hs'
  exact ⟨_, Wake.requests_calls _, hrest, hc, hs, congrArg Prod.snd hs', hdeeds⟩

/-- **Loop.** A loop of `c` takes requests from the channel `ch` and looks at its children in
between, whenever the clock ticks (`hw`).

* It is at its end exactly if it was before or `received` a shutdown, and nothing is left in the
  channel unless it is at its end.
* If it was at its end before, it takes nothing and does nothing.
* Otherwise it leaves what is `unread` behind the first shutdown. It makes `calls`, and handles in
  them what it `received`, in this order.
* If `view` separates launches and closings from polls, then but for the children all is as if it
  had handled just that: listener, token and phase, the `view` of the world, and the launches and
  closings that were asked for, with their answers. -/
theorem run_received {ch : Channel} {wakes : List Wake} (hw : ch.Interleaves wakes) :
    let r := c.run w s wakes
    let asked := c.askedByRun w s wakes
    (r.1.coordinator.phase = .terminated ↔ c.phase = .terminated ∨ .shutdown ∈ ch.received) ∧
    (r.2 ≠ [] → r.1.coordinator.phase = .terminated) ∧
    (c.phase = .terminated →
      r.2 = wakes ∧ r.1.coordinator = c ∧ r.1.state = s ∧ asked = []) ∧
    (c.phase = .serving →
      r.2.filterMap Wake.request? = ch.unread ∧
      (∃ calls, calls.filterMap Call.request? = ch.received ∧
        let h := (History.start c s).after w calls
        r.1.coordinator = h.coordinator ∧ r.1.state = h.state ∧ asked = h.asked) ∧
      ∀ {τ : Type} (view : σ → τ), w.Separates view →
        let h := (History.start c s).after w (ch.received.map .handle)
        r.1.coordinator.childless = h.coordinator.childless ∧ view r.1.state = view h.state ∧
          asked.filter (!·.isPoll) = h.asked) := by
  intro r asked
  obtain ⟨hreceived, hunread⟩ := hw.cut_eq
  by_cases hp : c.phase = .terminated
  · have hr : r = (⟨c, s, [.report (.waiting c.address)]⟩, wakes) :=
      run_of_terminated w c s hp wakes
    have hasked : asked = [] :=
      congrArg (·.1.state.2) (run_of_terminated w.recording c (s, []) hp wakes)
    simp [hr, hasked, hp]
  · replace hp := Phase.ne_terminated_iff.mp hp
    obtain ⟨calls, hcalls, hrest, hc, hs, hasked, -⟩ := c.run_of_serving w s hp wakes
    have hend : r.1.coordinator.phase = .terminated ↔ .shutdown ∈ ch.received := by
      rw [hc, History.phase_after, Call.handle_mem_iff, hcalls, hreceived]
      simp [History.start, hp]
    refine ⟨by simp [hend, hp], fun hne => ?_, fun h => ?_, fun _ => ⟨?_, ?_, ?_⟩⟩
    · rw [hrest] at hne
      rw [hend, ← hreceived]
      exact Wake.shutdown_mem_of_cut_ne_nil hne
    · rw [hp] at h
      cases h
    · rw [hrest, hunread]
    · exact ⟨calls, hcalls.trans hreceived, hc, hs, hasked⟩
    -- Polls are left out of the recorded run, which shows what is seen and what was asked for at
    -- once.
    · intro τ view hv h
      have hrec := (History.recorded_start c s).after (w := w)
      have hseen := hv.recording.after_eq (h := .start c (s, [])) rfl calls
      rw [hcalls, hreceived] at hseen
      simp only [History.seen, (hrec _).coordinator_eq, (hrec _).state_eq, Prod.mk.injEq] at hseen
      obtain ⟨hcoord, hview, hfilter⟩ := hseen
      have hpolls : h.asked.filter (!·.isPoll) = h.asked := by
        refine List.filter_eq_self.mpr fun i hi => ?_
        have hno := History.not_isPoll_of_handles w (.start c s) (by simp [History.asked,
          History.start]) ch.received i hi
        rw [hno, Bool.not_false]
      simp only [r, asked, hc, hs, hasked]
      exact ⟨hcoord, hview, hfilter.trans hpolls⟩

/-- A process is told to launch a replacement, to shut down, and to launch once more; then the
channel is closed. -/
def threeRequests : Channel := ⟨[.reloadCoexist, .shutdown, .reloadRetire], true⟩

/-- The loop wakes up for each of the `threeRequests`, and for ticks before and between them. -/
def ticking : List Wake :=
  [.tick, .request .reloadCoexist, .tick, .tick, .request .shutdown, .request .reloadRetire,
    .closed]

/-- The reload behind the shutdown is left in the channel, and the ticks change nothing. -/
theorem run_received_ticks :
    let s := (System.idle.acquireFrom "/s" none).state
    let r := (ofListener "/s" ⟨.unix, 3⟩).run System.surroundings s ticking
    threeRequests.Interleaves ticking ∧ threeRequests.received = [.reloadCoexist, .shutdown] ∧
      r.2.filterMap Wake.request? = [.reloadRetire] ∧ r.1.coordinator.phase = .terminated ∧
      r.1.coordinator.listener = none := by
  intro s r
  have hw : threeRequests.Interleaves ticking := rfl
  obtain ⟨hphase, -, -, hserving⟩ :=
    run_received System.surroundings (ofListener "/s" ⟨.unix, 3⟩) s hw
  obtain ⟨hunread, -, hsame⟩ := hserving rfl
  obtain ⟨hc, -, -⟩ := hsame System.alone System.separates_surroundings
  have hi := (History.coherent_start "/s" ⟨.unix, 3⟩ s).after System.surroundings
    (threeRequests.received.map .handle)
  have hstopped := hi.stopped_of_terminated ((History.phase_after ..).mpr (.inr (by decide)))
  have hnone := hi.listener_eq
  rw [hstopped, if_pos rfl] at hnone
  exact ⟨hw, rfl, hunread, hphase.mpr (.inr (by decide)),
    (congrArg Coordinator.listener hc).trans hnone⟩

end Coordinator

end Handoff
