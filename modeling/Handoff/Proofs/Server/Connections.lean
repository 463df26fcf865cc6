import Handoff.Proofs.Drain
import Handoff.Proofs.Server.Steps

/-!
# No connection is lost

The connections of a server are accounted for at every moment, however the clients, the accept loop,
the work on the connections and the stop interleave. So a drain, which begins behind the accept
loop, waits for all of them.

* `Service.accounted_step`, `Service.accounted_run`: the accounts agree with the marks.
* `Service.Step.stop_ends_nothing`: a stop, and the return of the accept loop, end no connection.
* `Service.Run.begun_eq_nil`: behind the return of the accept loop no connection is taken.
* `Service.Timed`: what happens to a server while it drains.
* `Service.connections_accounted`: all of it, from the start of the server to the end of its drain.
-/

namespace Handoff

namespace Service

variable {id : Nat} {u v w x : Service} {ms ns : List Mark}

/-! ## Accounts of a server at work -/

/-- **Step.** If the marks `ms` account for the connections of `v`, then `ms` with those of the step
account for the connections of `w`. -/
theorem accounted_step (h : v.echo.Accounted v.clients ms) (hs : Step id v ns w) :
    w.echo.Accounted w.clients (ms ++ ns) := by
  have hmodify : ∀ (k : Nat) {f : Connection → Connection}, (∀ c, (f c).id = c.id) →
      (v.echo.modify k f).Accounted v.clients ms := fun k f hf =>
    h.congr (EchoServer.tasks_modify _ k hf) (.refl _) rfl
  cases hs with
  -- Three steps change the accounts: a client waits, is taken, or ends. The others leave `tasks`,
  -- `queue` and `tracker` as they are.
  | accept _ => exact h.accept
  | serve k => exact h.serve k
  | work _ | shutdown _ _ | opens _ _ | closes _ | world _ => rwa [List.append_nil]
  | @settle c _ =>
    rw [List.append_nil]
    rcases v.settle_cases c with hw | ⟨l, -, -, hw⟩
    · rwa [hw]
    · rw [hw]
      unfold EchoServer.stop
      split
      · exact h.congr rfl (.refl _) rfl
      · exact h
  | connect peer =>
    rw [List.append_nil]
    exact h.connect peer
  | elsewhere hsub =>
    rw [List.append_nil]
    exact h.congr rfl (hsub.map _) rfl
  | arrive k _ | halfClose k | hangUp k _ =>
    rw [List.append_nil]
    exact hmodify k fun _ => rfl

/-- **Run.** And so after every interleaving of steps, with the marks `ms ++ ns`. -/
theorem accounted_run (h : v.echo.Accounted v.clients ms) (hr : Run id v ns w) :
    w.echo.Accounted w.clients (ms ++ ns) := by
  induction hr with
  | refl => rwa [List.append_nil]
  | tail _ hs ih =>
    rw [← List.append_assoc]
    exact accounted_step ih hs

/-- A run changes the `tracker` by its marks `ns`. -/
theorem tracker_run (h : v.echo.Accounted v.clients ms) (hr : Run id v ns w) :
    w.echo.tracker = Mark.tally v.echo.tracker ns := by
  rw [(accounted_run h hr).tracker_eq, Mark.tally_append, ← h.tracker_eq]

/-! ## The stop -/

/-- Whether the accept loop was told to stop. -/
def stopped (v : Service) : Bool := v.stage.coordinator?.any (·.stopped)

/-- The step that tells the accept loop to stop (`stopped`) ends no connection, and neither does the
one in which the `acceptor` returns. -/
theorem Step.stop_ends_nothing (hs : Step id v ns w)
    (h : w.stopped ≠ v.stopped ∨ w.acceptor ≠ v.acceptor) :
    ns = [] ∧ w.echo.connections = v.echo.connections ∧ w.echo.tracker = v.echo.tracker := by
  have hsame : w.stage = v.stage → w.acceptor = v.acceptor → False := by
    intro hstage hacceptor
    rcases h with h | h
    · exact h (by unfold stopped; rw [hstage])
    · exact h hacceptor
  cases hs with
  | work _ | shutdown _ _ => exact ⟨rfl, rfl, rfl⟩
  | @settle c _ =>
    rcases v.settle_cases c with hw | ⟨l, -, -, hw⟩
    · rw [hw]
      exact ⟨rfl, rfl, rfl⟩
    · rw [hw]
      unfold EchoServer.stop
      split <;> exact ⟨rfl, rfl, rfl⟩
  | _ => exact (hsame rfl rfl).elim

/-- Once the accept loop has returned (`h`), no step takes a connection. -/
theorem Step.begun_eq_nil (hs : Step id v ns w) (h : v.acceptor = none) :
    w.acceptor = none ∧ Mark.begun ns = [] := by
  cases hs with
  | accept ha =>
    rw [h] at ha
    cases ha
  | serve k =>
    refine ⟨h, ?_⟩
    simp [EchoServer.finished, Mark.begun, List.filterMap_map]
  | @settle c _ =>
    rcases v.settle_cases c with hw | ⟨l, ha, -, -⟩
    · rw [hw]
      exact ⟨h, rfl⟩
    · rw [h] at ha
      cases ha
  | _ => exact ⟨h, rfl⟩

theorem Run.begun_eq_nil (hr : Run id v ns w) (h : v.acceptor = none) :
    w.acceptor = none ∧ Mark.begun ns = [] := by
  induction hr with
  | refl => exact ⟨h, rfl⟩
  | tail _ hs ih =>
    obtain ⟨hacceptor, hbegun⟩ := ih
    obtain ⟨hacceptor', hbegun'⟩ := hs.begun_eq_nil hacceptor
    refine ⟨hacceptor', ?_⟩
    rw [Mark.begun_append, hbegun, hbegun']
    rfl

/-- So `tracker.active` does not rise any more. -/
theorem active_le_of_run (h : v.echo.Accounted v.clients ms) (hr : Run id v ns w)
    (hacceptor : v.acceptor = none) : w.echo.tracker.active ≤ v.echo.tracker.active := by
  have h' := accounted_run h hr
  -- At each moment, as many connections have begun as have ended or are served, and the run adds
  -- none to those that have begun.
  have hlen := h.perm.length_eq
  have hlen' := h'.perm.length_eq
  rw [Mark.begun_append, Mark.ended_append, (hr.begun_eq_nil hacceptor).2] at hlen'
  simp only [List.length_append, List.length_nil] at hlen hlen'
  rw [h.active_eq, h'.active_eq]
  omega

/-! ## The drain -/

/-- What happens to a server in some instants, each with its time and its marks. -/
inductive Timed (id : Nat) : Service → List (Nat × List Mark) → Service → Prop
  | nil {v : Service} : Timed id v [] v
  /-- Some steps are taken in one instant. -/
  | cons {v w x : Service} {ms : List Mark} {bs : List (Nat × List Mark)} (time : Nat) :
      Run id v ms w → Timed id w bs x → Timed id v ((time, ms) :: bs) x

/-- The marks of all instants `bs`. -/
def marks (bs : List (Nat × List Mark)) : List Mark := bs.flatMap (·.2)

/-- The instants `bs` as a drain meets them. -/
def instants (bs : List (Nat × List Mark)) : List Instant :=
  bs.map fun b => ⟨b.1, b.2.map Mark.change⟩

variable {bs cs : List (Nat × List Mark)}

theorem track_instants (t : Tracker) (bs : List (Nat × List Mark)) :
    Drain.track t (instants bs) = Mark.tally t (marks bs) := by
  induction bs generalizing t with
  | nil => rfl
  | cons b bs ih =>
    show Drain.track (Mark.tally t b.2) (instants bs) = Mark.tally t (b.2 ++ marks bs)
    rw [ih, Mark.tally_append]

/-- All instants `bs` together are a run. -/
theorem Timed.run (h : Timed id v bs x) : Run id v (marks bs) x := by
  induction h with
  | nil => exact .refl
  | cons _ hr _ ih => exact hr.trans ih

/-- Between two of the instants there was a moment `z`. -/
theorem Timed.split (h : Timed id v (bs ++ cs) x) : ∃ z, Timed id v bs z ∧ Timed id z cs x := by
  induction bs generalizing v with
  | nil => exact ⟨v, .nil, h⟩
  | cons b bs ih =>
    cases h with
    | cons time hr ht =>
      obtain ⟨z, hbs, hcs⟩ := ih ht
      exact ⟨z, .cons time hr hbs, hcs⟩

/-- A drain begins, with `leave?`, when the accept loop has returned. -/
theorem of_leave? {is : List Instant} {o : Drain} (h : v.leave? is = some o) :
    v.acceptor = none ∧ o = .run v.config.drainTimeout.millis v.echo.tracker is := by
  unfold leave? at h
  split at h
  · rename_i ha
    split at h
    · cases h
      exact ⟨ha, rfl⟩
    · cases h
  · cases h

/-- A drain that reports the end of all connections (`hf`) was there at a moment `z` at which all
that were ever taken had ended, and from which on none is active. -/
theorem finished_of_leave? {o : Drain} (h : v.echo.Accounted v.clients ms)
    (ht : Timed id v bs x) (ho : v.leave? (instants bs) = some o) (hf : o.finished = true) :
    ∃ before after z, bs = before ++ after ∧ Timed id v before z ∧ Timed id z after x ∧
      o.elapsed = Drain.lastTime (instants before) ∧ z.echo.tracker = o.tracker ∧
      z.echo.tracker.active = 0 ∧
      (Mark.ended (ms ++ marks before)).Perm (Mark.begun (ms ++ marks before)) ∧
      ∀ ns w, Run id z ns w → w.echo.tracker.active = 0 := by
  obtain ⟨hacceptor, rfl⟩ := of_leave? ho
  obtain ⟨isBefore, isAfter, his, htracker, hzero, htime, -⟩ := Drain.run_finished hf
  -- What the drain has seen is a front part of what happens, so there is a moment `z` behind it.
  obtain ⟨before, after, rfl, rfl, -⟩ := List.map_eq_append_iff.mp his
  obtain ⟨z, hbefore, hafter⟩ := ht.split
  have hz := accounted_run h hbefore.run
  have htrack : z.echo.tracker = Drain.track v.echo.tracker (instants before) := by
    rw [track_instants, tracker_run h hbefore.run]
  have hactive : z.echo.tracker.active = 0 := by
    rw [htrack]
    exact htracker ▸ hzero
  refine ⟨before, after, z, rfl, hbefore, hafter, htime, htrack.trans htracker.symm, hactive,
    hz.perm_of_idle hactive, ?_⟩
  -- The accept loop had returned before the drain began, so zero stays zero.
  intro ns w hr
  have hle := active_le_of_run hz hr (hbefore.run.begun_eq_nil hacceptor).1
  omega

/-! ## From the start of a server on -/

/-- **Connections.** A server has begun to serve `l` (`hserve`), and since then steps were taken in
any order, with the marks `ms` (`hrun`). Each connection that was taken from the queue was counted
once and is served or has ended, once, and `active` are as many as are served. A stop ends none of
them, not even at the moment at which one is taken. Behind the accept loop the count never rises.
The drain `o` begins behind it: if it is `finished`, then all connections that were ever taken have
ended, and none is active any more, and otherwise it has taken as long as `config.drainTimeout`
allows. -/
theorem connections_accounted {s s' : System} {config : Config} {l : Listener} {i : Instance}
    {events : List Event} (hserve : s.serve config l = ⟨.ok i, s', events⟩)
    (hrun : Run id (ofInstance s' 0 i) ms v) :
    ((Mark.begun ms).Nodup ∧ (v.echo.tasks ++ Mark.ended ms).Perm (Mark.begun ms) ∧
      v.echo.tracker = Mark.tally {} ms ∧ v.echo.tracker.active = v.echo.tasks.length) ∧
    (∀ ns w, Step id v ns w → w.stopped ≠ v.stopped ∨ w.acceptor ≠ v.acceptor →
      ns = [] ∧ w.echo.connections = v.echo.connections ∧ w.echo.tracker = v.echo.tracker) ∧
    (v.acceptor = none → ∀ ns w, Run id v ns w → w.acceptor = none ∧ Mark.begun ns = [] ∧
      w.echo.tracker.active ≤ v.echo.tracker.active) ∧
    ∀ bs x o, Timed id v bs x → v.leave? (instants bs) = some o → v.acceptor = none ∧
      (o.finished = true → ∃ before after z, bs = before ++ after ∧ Timed id v before z ∧
        Timed id z after x ∧ o.elapsed = Drain.lastTime (instants before) ∧
        z.echo.tracker = o.tracker ∧ z.echo.tracker.active = 0 ∧
        (Mark.ended (ms ++ marks before)).Perm (Mark.begun (ms ++ marks before)) ∧
        ∀ ns w, Run id z ns w → w.echo.tracker.active = 0) ∧
      (o.finished = false → o.elapsed = config.drainTimeout.millis) := by
  obtain ⟨hconfig, -, hecho, -⟩ := of_serve hserve
  have hstart : (ofInstance s' 0 i).echo.Accounted 0 [] := by
    show i.echo.Accounted 0 []
    rw [hecho]
    exact .start _
  have h : v.echo.Accounted v.clients ms := accounted_run hstart hrun
  refine ⟨⟨h.nodup.of_append_left, h.perm, h.tracker_eq, h.active_eq⟩,
    fun _ _ hs => hs.stop_ends_nothing, fun hacceptor ns w hr => ?_, fun bs x o ht ho => ?_⟩
  · obtain ⟨hnone, hbegun⟩ := hr.begun_eq_nil hacceptor
    exact ⟨hnone, hbegun, active_le_of_run h hr hacceptor⟩
  · refine ⟨(of_leave? ho).1, finished_of_leave? h ht ho, fun hf => ?_⟩
    obtain ⟨-, rfl⟩ := of_leave? ho
    rw [(Drain.run_gaveUp hf).1, hrun.self_eq.2, ← hconfig]
    rfl

/-- A client has connected to `unixInstance`, which is told to stop and takes the client at the same
moment. The accept loop returns, and after five milliseconds of the drain the client hangs up. Then
all connections are finished, and no step makes one active again. -/
theorem connections_accounted_raced :
    ∃ v x o, Run 0 (ofInstance unixStart.state 0 unixInstance) [.begins 0] v ∧
      v.stopped = true ∧ v.echo.tracker.active = v.echo.tasks.length ∧ v.echo.tasks = [0] ∧
      Timed 0 v [(5, [.ends 0])] x ∧ v.leave? (instants [(5, [.ends 0])]) = some o ∧
      o.finished = true ∧ o.elapsed = 5 ∧
      ∃ z, z.echo.tracker = o.tracker ∧ ∀ ns w, Run 0 z ns w → w.echo.tracker.active = 0 := by
  let fresh : Service := ofInstance unixStart.state 0 unixInstance
  let called : Service := { fresh with echo := fresh.echo.connect 0 "unix", clients := 1 }
  let t := unixInstance.coordinator.handle System.surroundings called.system .shutdown
  let told : Service := { called with system := t.state, stage := .serving t.coordinator }
  let took : Service := { told with echo := told.echo.accept.1 }
  let v : Service := took.settle t.coordinator
  let left : Service := { v with echo := v.echo.hangUp 0 false }
  let x : Service := { left with echo := (left.echo.serve 0).1 }
  have hcalled : Step 0 fresh [] called := .connect "unix"
  have htold : Step 0 called [] told := .shutdown rfl rfl
  have htook : Step 0 told [.begins 0] took := .accept (l := ⟨.unix, 4⟩) rfl
  have hv : Step 0 took [] v := .settle rfl
  have hleft : Step 0 v [] left := .hangUp 0 false
  have hx : Step 0 left [.ends 0] x := .serve 0
  have hrun : Run 0 fresh [.begins 0] v := ((hcalled.run.next htold).tail htook).next hv
  have hdrain : Timed 0 v [(5, [.ends 0])] x := .cons 5 (hleft.run.tail hx) .nil
  have hleave : v.leave? (instants [(5, [.ends 0])]) =
      some ⟨true, 5, {}, [.draining 1 ⟨30000⟩, .drained]⟩ := rfl
  obtain ⟨hcounts, -, -, hend⟩ := connections_accounted unixStart_eq hrun
  obtain ⟨-, -, z, -, -, -, -, hz, -, -, hzero⟩ := (hend _ _ _ hdrain hleave).2.1 rfl
  exact ⟨v, x, _, hrun, rfl, hcounts.2.2.2, rfl, hdrain, hleave, rfl, rfl, z, hz, hzero⟩

end Service

end Handoff
