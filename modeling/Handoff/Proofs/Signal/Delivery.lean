import Handoff.Signal.Relay

/-!
# Every request is delivered or on its way

Signals may arrive at any moment, the forwarder takes the pending ones in any order, and the
receiver takes what it finds. A request that is asked for again while it is in the queue is
dropped, and whether it is in the queue is told by the request that was put in last.

* `Relay.Step`, `Relay.Run`: the steps of a relay whose receiver is there, with what is seen of
  them, and all runs.
* `Relay.run_settle`: the forwarder that looks in a fixed order is one of them.
* `Relay.Effect.outstanding`: a request that is on its way stays there until it is received.
* `Relay.Effect.count_le`: a step makes no request.
* `Relay.Run.sound`: what all states of a run have in common, the meaning of `last` included.
* `Relay.relay_faithful`: no request is lost, invented or dropped for another one.
* `Relay.Run.deliver`: what is on its way can be received without any further signal.
-/

namespace Handoff

/-- What is seen of a relay from outside. -/
inductive Incident where
  | raised (s : OsSignal)
  /-- The receiver took a `request`. -/
  | received (request : Signal)
  deriving DecidableEq, Repr

/-- Whether a signal that stands for `request` arrived. -/
def Incident.raises (request : Signal) : Incident → Bool
  | .raised s => s.request = request
  | .received _ => false

namespace Pending

/-- How many signals that stand for `request` are pending. -/
def count (p : Pending) (request : Signal) : Nat :=
  [OsSignal.hup, .usr2, .int, .quit].countP fun s => p.has s && s.request = request

theorem has_set (p : Pending) (b : Bool) (s k : OsSignal) :
    (p.set b s).has k = if k = s then b else p.has k := by
  cases s <;> cases k <;> rfl

theorem has_first? {p : Pending} {s : OsSignal} (h : p.first? = some s) : p.has s = true :=
  List.find?_some h

/-- A signal `s` that is set adds at most itself. -/
theorem count_set_true (p : Pending) (s : OsSignal) (request : Signal) :
    (p.set true s).count request ≤ p.count request + if s.request = request then 1 else 0 := by
  cases s <;> cases request <;> simp [count, has_set, OsSignal.request] <;> grind

theorem count_set_false {p : Pending} {s : OsSignal} (h : p.has s = true) (request : Signal) :
    (p.set false s).count request + (if s.request = request then 1 else 0) = p.count request := by
  cases s <;> cases request <;> simp_all [count, has_set, OsSignal.request] <;> grind

end Pending

namespace Relay

/-- `request` is on its way: a signal for it is pending, the forwarder holds one, or the queue has
it. -/
def Outstanding (r : Relay) (request : Signal) : Prop :=
  (∃ s, r.pending.has s = true ∧ s.request = request) ∨
    (∃ s, r.held = some s ∧ s.request = request) ∨ r.queue = some request

/-- How often `request` is held by the forwarder or in the queue. -/
def inFlight (r : Relay) (request : Signal) : Nat :=
  (if r.queue = some request then 1 else 0) +
    if r.held.map OsSignal.request = some request then 1 else 0

/-- A step of a relay whose receiver is there, with what is seen of it and the events that it
reports. The forwarder takes any of the pending signals. -/
inductive Step : Relay → List Incident → List Event → Relay → Prop
  | raise {r : Relay} (s : OsSignal) : Step r [.raised s] [] (r.raise s)
  /-- The receiver takes the `request` in the queue. -/
  | receive {r : Relay} {request : Signal} : r.queue = some request →
      Step r [.received request] [] r.receive.2
  /-- The idle forwarder takes a pending signal and sends it. -/
  | take {r : Relay} {s : OsSignal} : r.running = true → r.held = none → r.pending.has s = true →
      Step r [] (r.take s).2 (r.take s).1
  /-- The forwarder puts the signal that it holds into the queue. -/
  | release {r r' : Relay} {s : OsSignal} {events : List Event} : r.running = true →
      r.held = some s → r.release? s = some (r', events) → Step r [] events r'

/-- The runs from the start, with what was seen of them. -/
inductive Run : List Incident → Relay → Prop
  | start : Run [] {}
  | step {seen now : List Incident} {r r' : Relay} {events : List Event} : Run seen r →
      Step r now events r' → Run (seen ++ now) r'

variable {r r' : Relay} {seen now : List Incident} {events : List Event}

/-! ## The forwarder with its own order -/

theorem step_of_forward? (h : r.forward? = some (r', events)) : Step r [] events r' := by
  unfold forward? at h
  split at h
  · cases h
  · rename_i hrun
    have hrun : r.running = true := by simpa using hrun
    split at h
    · rename_i s hs
      exact .release hrun hs h
    · rename_i hs
      obtain ⟨s, hfirst, htake⟩ := Option.map_eq_some_iff.mp h
      have hstep := Step.take hrun hs (Pending.has_first? hfirst)
      rwa [htake] at hstep

theorem run_settleIn (n : Nat) (h : Run seen r) : Run seen (r.settleIn n).1 := by
  induction n generalizing r with
  | zero => exact h
  | succ n ih =>
    unfold settleIn
    split
    · exact h
    · rename_i r' es hf
      have h' := h.step (step_of_forward? hf)
      rw [List.append_nil] at h'
      exact ih h'

/-- The forwarder that looks in a fixed order (`settle`) takes steps of a run. -/
theorem run_settle (h : Run seen r) : Run seen r.settle.1 := run_settleIn 6 h

/-! ## What a step does -/

/-- The steps again, by what becomes of the request. -/
inductive Effect (r : Relay) : List Incident → List Event → Relay → Prop
  | raised (s : OsSignal) : Effect r [.raised s] [] { r with pending := r.pending.set true s }
  /-- A `request` leaves the queue. -/
  | received {request : Signal} : r.queue = some request →
      Effect r [.received request] [] { r with queue := none }
  /-- A pending signal goes into the empty queue. -/
  | forwarded {s : OsSignal} : r.held = none → r.pending.has s = true → r.queue = none →
      Effect r [] [.forwarded s]
        { r with pending := r.pending.set false s, queue := some s.request, last := some s.request }
  /-- A pending signal is dropped, and its request is in the queue. -/
  | coalesced {s : OsSignal} : r.held = none → r.pending.has s = true →
      r.queue = some s.request →
      Effect r [] [.coalesced s] { r with pending := r.pending.set false s }
  /-- A pending signal is held, and another request is in the queue. -/
  | queueing {s : OsSignal} {request : Signal} : r.held = none → r.pending.has s = true →
      r.queue = some request → request ≠ s.request →
      Effect r [] [.queueing s] { r with pending := r.pending.set false s, held := some s }
  /-- The signal that was held goes into the empty queue. -/
  | released {s : OsSignal} : r.held = some s → r.queue = none →
      Effect r [] [] { r with queue := some s.request, last := some s.request, held := none }

/-- While the receiver is there (`hr`) and the queue holds nothing but the request that was put in
last (`hlast`), there are no other effects. -/
theorem Step.effect (h : Step r now events r') (hr : r.receiving = true)
    (hlast : ∀ request, r.queue = some request → r.last = some request) :
    Effect r now events r' := by
  cases h with
  | raise s => exact .raised s
  | receive hq => exact .received hq
  | @take s _ hheld hs =>
    unfold Relay.take send
    rw [if_neg (by simp [hr])]
    by_cases hn : r.queue.isNone = true
    · rw [if_pos hn]
      exact .forwarded hheld hs (Option.isNone_iff_eq_none.mp hn)
    · obtain ⟨request, hq⟩ := Option.ne_none_iff_exists'.mp (by simpa using hn)
      rw [if_neg hn]
      by_cases he : request = s.request
      · rw [if_pos (he ▸ hlast request hq)]
        exact .coalesced hheld hs (he ▸ hq)
      · rw [if_neg (by simpa [hlast request hq] using he)]
        exact .queueing hheld hs hq he
  | @release _ s _ _ hs hrel =>
    unfold release? at hrel
    rw [if_neg (by simp [hr])] at hrel
    split at hrel
    · rename_i hq
      cases hrel
      exact .released hs (Option.isNone_iff_eq_none.mp hq)
    · cases hrel

/-- A request stays on its way when the signal `s` is no longer pending but its request is elsewhere
(`hs`). -/
theorem Outstanding.of_cleared {s : OsSignal} {request : Signal} (ho : r.Outstanding request)
    (hp : r'.pending = r.pending.set false s) (hs : r'.Outstanding s.request)
    (hheld : ∀ k, r.held = some k → k.request = request → r'.Outstanding request)
    (hq : r.queue = some request → r'.queue = some request) : r'.Outstanding request := by
  rcases ho with ⟨k, hk, rfl⟩ | ⟨k, hk, hr⟩ | ho
  · by_cases he : k = s
    · exact he ▸ hs
    · exact .inl ⟨k, by rwa [hp, Pending.has_set, if_neg he], rfl⟩
  · exact hheld k hk hr
  · exact .inr (.inr (hq ho))

namespace Effect

/-- **Nothing is lost.** A `request` that is on its way (`Outstanding`) stays there until it is
received. -/
theorem outstanding (h : Effect r now events r') {request : Signal} (ho : r.Outstanding request) :
    .received request ∈ now ∨ r'.Outstanding request := by
  cases h with
  | raised s =>
    refine .inr (ho.imp_left fun ⟨k, hk, hr⟩ => ⟨k, ?_, hr⟩)
    rw [Pending.has_set]
    split
    · rfl
    · exact hk
  -- The request that is taken from the queue is received; any other was not in the queue.
  | @received q hq =>
    by_cases he : q = request
    · exact .inl (by simp [he])
    · rcases ho with ho | ho | ho
      · exact .inr (.inl ho)
      · exact .inr (.inr (.inl ho))
      · exact (he (Option.some.inj (hq.symm.trans ho))).elim
  -- The next three clear one pending signal, whose request is then held or in the queue.
  | forwarded hheld hs hq =>
    exact .inr (ho.of_cleared rfl (.inr (.inr rfl)) (by simp [hheld]) (by simp [hq]))
  | coalesced hheld hs hq =>
    exact .inr (ho.of_cleared rfl (.inr (.inr hq)) (by simp [hheld]) id)
  | @queueing s q hheld hs hq =>
    exact .inr (ho.of_cleared rfl (.inr (.inl ⟨s, rfl, rfl⟩)) (by simp [hheld]) id)
  | @released s hheld hq =>
    rcases ho with ho | ⟨k, hk, hr⟩ | ho
    · exact .inr (.inl ho)
    · obtain rfl : s = k := Option.some.inj (hheld.symm.trans hk)
      exact .inr (.inr (.inr (congrArg some hr)))
    · simp [hq] at ho

/-- A request that is asked for with the signal `s` is on its way. -/
theorem outstanding_of_raised (h : Effect r now events r') {s : OsSignal}
    (hs : .raised s ∈ now) : r'.Outstanding s.request := by
  cases h with
  | raised k =>
    obtain rfl : s = k := by simpa using hs
    exact .inl ⟨s, by simp [Pending.has_set], rfl⟩
  | received => simp at hs
  | _ => cases hs

/-- **Nothing is invented.** What is received, in flight and pending of a `request` grows at most by
the signals that raise it. -/
theorem count_le (h : Effect r now events r') (request : Signal) :
    now.count (.received request) + r'.inFlight request + r'.pending.count request ≤
      now.countP (Incident.raises request) + r.inFlight request + r.pending.count request := by
  -- A signal is counted while it is pending and while its request is held, queued or received, and
  -- every effect moves it on by one of these.
  cases h with
  | raised s =>
    have hp := Pending.count_set_true r.pending s request
    simp only [inFlight, List.count_singleton, List.countP_singleton, Incident.raises,
      decide_eq_true_eq, beq_iff_eq, reduceCtorEq, if_false]
    omega
  | received hq =>
    simp only [inFlight, hq, List.count_singleton, List.countP_singleton, Incident.raises,
      beq_iff_eq, Incident.received.injEq, Option.some.injEq, reduceCtorEq, if_false]
    omega
  | forwarded hheld hs hq =>
    have hp := Pending.count_set_false hs request
    simp only [inFlight, hq, hheld, Option.map_none, Option.some.injEq, reduceCtorEq, if_false,
      List.count_nil, List.countP_nil]
    omega
  | coalesced hheld hs hq =>
    have hp := Pending.count_set_false hs request
    simp only [inFlight, List.count_nil, List.countP_nil]
    omega
  | queueing hheld hs hq =>
    have hp := Pending.count_set_false hs request
    simp only [inFlight, hheld, Option.map_none, Option.map_some, Option.some.injEq, reduceCtorEq,
      if_false, List.count_nil, List.countP_nil]
    omega
  | released hheld hq =>
    simp only [inFlight, hheld, hq, Option.map_none, Option.map_some, Option.some.injEq,
      reduceCtorEq, if_false, List.count_nil, List.countP_nil]
    omega

/-- The request in the `queue` stays the `last` one that was put in. -/
theorem last_eq (h : Effect r now events r')
    (hlast : ∀ request, r.queue = some request → r.last = some request) :
    ∀ request, r'.queue = some request → r'.last = some request := by
  cases h with
  | received => intro _ hq; cases hq
  | forwarded | released => exact fun _ hq => hq
  | _ => exact hlast

theorem running (h : Effect r now events r') :
    r'.receiving = r.receiving ∧ r'.running = r.running := by
  cases h <;> exact ⟨rfl, rfl⟩

end Effect

/-! ## What all states have in common -/

/-- What holds at every moment of a run in which `seen` was seen. -/
structure Sound (seen : List Incident) (r : Relay) : Prop where
  receiving : r.receiving = true
  running : r.running = true
  /-- The request in the queue is the one that was put in last. -/
  last_eq : ∀ request, r.queue = some request → r.last = some request
  /-- A request that was asked for has been received since or is on its way. -/
  kept : ∀ (i : Nat) (s : OsSignal), seen[i]? = some (.raised s) →
    (∃ j, i < j ∧ seen[j]? = some (.received s.request)) ∨ r.Outstanding s.request
  /-- What was received, is in flight or pending was asked for. -/
  count_le : ∀ request, seen.count (.received request) + r.inFlight request +
    r.pending.count request ≤ seen.countP (Incident.raises request)

theorem sound_start : Sound [] {} := by
  refine ⟨rfl, rfl, fun _ h => h, fun i s h => by simp at h, fun request => ?_⟩
  cases request <;> decide

theorem Sound.step (h : Sound seen r) (hs : Step r now events r') : Sound (seen ++ now) r' := by
  have he := hs.effect h.receiving h.last_eq
  obtain ⟨hrec, hrun⟩ := he.running
  refine ⟨hrec.trans h.receiving, hrun.trans h.running, he.last_eq h.last_eq, fun i s hi => ?_,
    fun request => ?_⟩
  -- A signal that was seen before has been received, is received now, or is on its way; one that is
  -- seen now is on its way.
  · by_cases hlt : i < seen.length
    · rw [List.getElem?_append_left hlt] at hi
      rcases h.kept i s hi with ⟨j, hij, hj⟩ | ho
      · obtain ⟨hjlt, -⟩ := List.getElem?_eq_some_iff.mp hj
        exact .inl ⟨j, hij, by rwa [List.getElem?_append_left hjlt]⟩
      · rcases he.outstanding ho with hmem | ho
        · obtain ⟨k, hk⟩ := List.mem_iff_getElem?.mp hmem
          refine .inl ⟨seen.length + k, by omega, ?_⟩
          rwa [List.getElem?_append_right (by omega), Nat.add_sub_cancel_left]
        · exact .inr ho
    · rw [List.getElem?_append_right (by omega)] at hi
      exact .inr (he.outstanding_of_raised (List.mem_of_getElem? hi))
  · have hold := h.count_le request
    have hnew := he.count_le request
    rw [List.count_append, List.countP_append]
    omega

theorem Run.sound (h : Run seen r) : Sound seen r := by
  induction h with
  | start => exact sound_start
  | step _ hs ih => exact ih.step hs

/-! ## Delivery -/

/-- A run goes on without further signals: the receiver takes requests and the forwarder works. -/
structure Run.Later (seen : List Incident) (r : Relay) (more : List Incident) (r' : Relay) :
    Prop where
  run : Run (seen ++ more) r'
  quiet : ∀ s, .raised s ∉ more

theorem Run.Later.trans {more more' : List Incident} {r'' : Relay}
    (h : Run.Later seen r more r') (h' : Run.Later (seen ++ more) r' more' r'') :
    Run.Later seen r (more ++ more') r'' := by
  refine ⟨by rw [← List.append_assoc]; exact h'.run, fun s hs => ?_⟩
  rcases List.mem_append.mp hs with hs | hs
  · exact h.quiet s hs
  · exact h'.quiet s hs

theorem Run.later (h : Run seen r) (hs : Step r now events r') (hq : ∀ s, .raised s ∉ now) :
    Run.Later seen r now r' := ⟨h.step hs, hq⟩

/-- The `queue` is emptied. -/
theorem Run.empty_queue (h : Run seen r) : ∃ more, Run.Later seen r more { r with queue := none } ∧
    ∀ request, r.queue = some request → .received request ∈ more := by
  cases hq : r.queue with
  | none =>
    refine ⟨[], ⟨?_, by simp⟩, by simp⟩
    rw [List.append_nil, ← hq]
    exact h
  | some q => exact ⟨[.received q], h.later (.receive hq) (by simp), by simp⟩

/-- The forwarder (`held`) and the `queue` are emptied. -/
theorem Run.empty_held (h : Run seen r) : ∃ more r', Run.Later seen r more r' ∧
    r'.pending = r.pending ∧ r'.held = none ∧ r'.queue = none ∧
    ∀ request, r.queue = some request ∨ (∃ s, r.held = some s ∧ s.request = request) →
      .received request ∈ more := by
  obtain ⟨more, hm, hmem⟩ := h.empty_queue
  cases hheld : r.held with
  | none => exact ⟨more, _, hm, rfl, hheld, rfl, by simpa using hmem⟩
  -- The queue has to be emptied first, so that what is held can be put into it, and once more
  -- behind that.
  | some s =>
    have hrel : { r with queue := none }.release? s = some
        ({ r with queue := some s.request, last := some s.request, held := none }, []) := by
      simp [release?, h.sound.receiving]
    have h₁ := hm.trans (hm.run.later (.release hm.run.sound.running hheld hrel) (by simp))
    obtain ⟨more', hm', hmem'⟩ := h₁.run.empty_queue
    refine ⟨_, _, h₁.trans hm', rfl, rfl, rfl, ?_⟩
    rintro request (hq | ⟨k, hk, rfl⟩)
    · simp [hmem request hq]
    · cases hk
      exact List.mem_append_right _ (hmem' s.request rfl)

/-- **Delivery.** A `request` that is on its way can be received without any further signal. -/
theorem Run.deliver (h : Run seen r) {request : Signal} (ho : r.Outstanding request) :
    ∃ more r', Run.Later seen r more r' ∧ .received request ∈ more := by
  obtain ⟨more, r', hm, hp, hheld, hq, hmem⟩ := h.empty_held
  rcases ho with ⟨s, hs, rfl⟩ | ho | ho
  · -- The queue and the forwarder are empty now, so the pending signal goes straight through.
    have hfree : (r'.take s).1.queue = some s.request := by
      simp [Relay.take, send, hm.run.sound.receiving, hq]
    have h₁ := hm.trans (hm.run.later (.take hm.run.sound.running hheld (hp ▸ hs)) (by simp))
    obtain ⟨more', hm', hmem'⟩ := h₁.run.empty_queue
    exact ⟨_, _, h₁.trans hm', by simp [hmem' s.request hfree]⟩
  · exact ⟨more, r', hm, hmem request (.inr ho)⟩
  · exact ⟨more, r', hm, hmem request (.inl ho)⟩

/-- **The relay is faithful.** At every moment of every run (`h`), each request that was asked for
has been received since or is `Outstanding`, and what is so can still be received; no request was
received or is in flight more often than it was asked for; and when the forwarder drops a signal,
the queue holds just that request. -/
theorem relay_faithful (h : Run seen r) :
    (∀ (i : Nat) (s : OsSignal), seen[i]? = some (.raised s) →
      (∃ j, i < j ∧ seen[j]? = some (.received s.request)) ∨
        r.Outstanding s.request ∧
          ∃ more r', Run.Later seen r more r' ∧ .received s.request ∈ more) ∧
    (∀ request, seen.count (.received request) + r.inFlight request ≤
      seen.countP (Incident.raises request)) ∧
    ∀ now events r' s, Step r now events r' → .coalesced s ∈ events →
      r.queue = some s.request := by
  have hsound := h.sound
  refine ⟨fun i s hi => (hsound.kept i s hi).imp_right fun ho => ⟨ho, h.deliver ho⟩,
    fun request => ?_, fun now events r' s hs hmem => ?_⟩
  · have := hsound.count_le request
    omega
  · cases hs.effect hsound.receiving hsound.last_eq with
    | coalesced _ _ hq =>
      obtain rfl := by simpa using hmem
      exact hq
    | raised | received | released => cases hmem
    | forwarded | queueing => simp at hmem

/-- Hangup is pending again while its request is in the queue. -/
def repeated : Relay :=
  { pending := { hup := true }, last := some .reloadRetire, queue := some .reloadRetire }

/-- Quit waits behind a reload, the repeated hangup was dropped. -/
def waiting : Relay :=
  { held := some .quit, last := some .reloadRetire, queue := some .reloadRetire }

/-- A hangup that comes twice is dropped once, and the shutdown that comes behind it is
delivered. -/
theorem relay_faithful_waiting :
    Run [.raised .hup, .raised .hup] repeated ∧
      Step repeated [] [.coalesced .hup] { repeated with pending := {} } ∧
      repeated.queue = some .reloadRetire ∧
    Run [.raised .hup, .raised .hup, .raised .quit] waiting ∧
      ∃ more r', Run.Later [.raised .hup, .raised .hup, .raised .quit] waiting more r' ∧
        .received .shutdown ∈ more := by
  have h₀ : Run [.raised .hup] { repeated with pending := {} } :=
    (Run.start.step (.raise .hup)).step (.take (s := .hup) rfl rfl rfl)
  have h₁ : Run [.raised .hup, .raised .hup] repeated := h₀.step (.raise .hup)
  have hdrop : Step repeated [] [.coalesced .hup] { repeated with pending := {} } :=
    .take (s := .hup) rfl rfl rfl
  have h₂ : Run [.raised .hup, .raised .hup, .raised .quit] waiting :=
    ((h₁.step hdrop).step (.raise .quit)).step (.take (s := .quit) rfl rfl rfl)
  refine ⟨h₁, hdrop, (relay_faithful h₁).2.2 _ _ _ .hup hdrop (by simp), h₂, ?_⟩
  rcases (relay_faithful h₂).1 2 .quit rfl with ⟨j, hj, hr⟩ | ⟨-, hmore⟩
  · -- Nothing was seen behind the quit.
    rw [List.getElem?_eq_none (Nat.succ_le_of_lt hj)] at hr
    cases hr
  · exact hmore

end Relay

end Handoff
