import Handoff.Proofs.Echo.Stream
import Handoff.Proofs.Server.Connections

/-!
# Connections do not influence each other

A client that sends everything and then waits for the answers receives what its own bytes call for:
whatever the other clients do, in whatever order the steps interleave, and also when the server is
told to stop in the meantime.

* `EchoServer.Besides`: what happens at a server that is not about one connection.
* `Service.Step.besides`: every other step is about it.
* `Exchange`: what went over one connection.
* `Exchange.Step`, `Exchange.Run`: a server at work, with a client that sends some bytes and then
  only reads.
* `Exchange.stands_step`, `Exchange.stands_run`: what the client has received at every moment.
* `Exchange.received_eq`: two such clients of any two servers receive the same.
-/

namespace Handoff

/-! ## Besides a connection -/

namespace EchoServer

/-- What happens at a server that is not about the connection `k`, once that is taken. -/
inductive Besides (k : Nat) (e : EchoServer) : EchoServer → Prop
  | still : Besides k e e
  | stop : Besides k e e.stop.1
  | accept : Besides k e e.accept.1
  | connect (id : Nat) (peer : String) : Besides k e (e.connect id peer)
  /-- Clients that wait are taken elsewhere, or give up. -/
  | elsewhere {waiting : List (Nat × String)} : waiting.Sublist e.waiting →
      Besides k e { e with waiting := waiting }
  /-- The server works on another connection. -/
  | serve {j : Nat} : k ≠ j → Besides k e (e.serve j).1
  /-- Bytes arrive at another connection. -/
  | arrive {j : Nat} (bytes : List UInt8) : k ≠ j → Besides k e (e.arrive j bytes)
  /-- Another client has sent everything. -/
  | halfClose {j : Nat} : k ≠ j → Besides k e (e.halfClose j)
  /-- Another client hangs up. -/
  | hangUp {j : Nat} (unread : Bool) : k ≠ j → Besides k e (e.hangUp j unread)

variable {e e' : EchoServer} {k : Nat}

/-- What happens besides connection `k` changes it only if the server takes it. -/
theorem Besides.connection?_eq (h : e.Besides k e') :
    e'.connection? k = e.connection? k ∨ e' = e.accept.1 := by
  cases h with
  | accept => exact .inr rfl
  | stop =>
    left
    unfold EchoServer.stop
    split <;> rfl
  | still | connect _ _ | elsewhere _ => exact .inl rfl
  | serve hj => exact .inl (connection?_serve_of_ne hj)
  | arrive _ hj | halfClose hj | hangUp _ hj =>
    exact .inl (connection?_modify_of_ne (fun _ => rfl) hj)

theorem serve_label (e : EchoServer) (id : Nat) : (e.serve id).1.label = e.label := by
  unfold serve
  split
  · rfl
  · dsimp only
    split <;> rfl

end EchoServer

namespace Service

variable {id : Nat} {v w : Service} {ms : List Mark}

/-- Every step of a server happens besides the connection `k`, or is one of the four that are about
it. -/
theorem Step.besides (h : Step id v ms w) (k : Nat) :
    v.echo.Besides k w.echo ∨ w.echo = (v.echo.serve k).1 ∨
      (∃ bytes, w.echo = v.echo.arrive k bytes) ∨ w.echo = v.echo.halfClose k ∨
      ∃ unread, w.echo = v.echo.hangUp k unread := by
  cases h with
  | work _ | shutdown _ _ | opens _ _ | closes _ | world _ => exact .inl .still
  | @settle c _ =>
    rcases v.settle_cases c with hw | ⟨l, -, -, hw⟩
    · rw [hw]
      exact .inl .still
    · rw [hw]
      exact .inl .stop
  | accept _ => exact .inl .accept
  | connect peer => exact .inl (.connect _ peer)
  | elsewhere hsub => exact .inl (.elsewhere hsub)
  -- A step that names a connection `j` is one of `k` itself, or happens besides it.
  | serve j =>
    rcases eq_or_ne k j with rfl | hj
    · exact .inr (.inl rfl)
    · exact .inl (.serve hj)
  | arrive j bytes =>
    rcases eq_or_ne k j with rfl | hj
    · exact .inr (.inr (.inl ⟨bytes, rfl⟩))
    · exact .inl (.arrive bytes hj)
  | halfClose j =>
    rcases eq_or_ne k j with rfl | hj
    · exact .inr (.inr (.inr (.inl rfl)))
    · exact .inl (.halfClose hj)
  | hangUp j unread =>
    rcases eq_or_ne k j with rfl | hj
    · exact .inr (.inr (.inr (.inr ⟨unread, rfl⟩)))
    · exact .inl (.hangUp unread hj)

/-- A step takes no connection unless it is `accept`. -/
theorem Step.begun_cases (h : Step id v ms w) :
    Mark.begun ms = [] ∨ w.echo = v.echo.accept.1 ∧ ms = v.echo.taken v.echo.accept.1 := by
  cases h with
  | accept _ => exact .inr ⟨rfl, rfl⟩
  | serve k => exact .inl (by simp [EchoServer.finished, Mark.begun, List.filterMap_map])
  | _ => exact .inl rfl

/-- All answers of a server have the same `label`. -/
theorem Step.label_eq (h : Step id v ms w) : w.echo.label = v.echo.label := by
  cases h with
  | work _ | shutdown _ _ | opens _ _ | closes _ | world _ | connect _ | elsewhere _ => rfl
  | arrive _ _ | halfClose _ | hangUp _ _ => rfl
  | @settle c _ =>
    rcases v.settle_cases c with hw | ⟨l, -, -, hw⟩
    · rw [hw]
    · rw [hw]
      show v.echo.stop.1.label = _
      unfold EchoServer.stop
      split <;> rfl
  | accept _ =>
    show v.echo.accept.1.label = _
    unfold EchoServer.accept
    split <;> rfl
  | serve k => exact EchoServer.serve_label _ k

end Service

/-! ## One client -/

/-- What went over one connection. -/
structure Exchange where
  /-- The bytes of the client that have arrived at the server. -/
  arrived : List UInt8 := []
  received : List UInt8 := []
  deriving DecidableEq, Repr

namespace Exchange

/-- A step of a server for the socket `id`. The client `k` sends the bytes `sent`, and then no more;
it reads all answers. What it sends before the server takes its connection arrives later. -/
inductive Step (id k : Nat) (sent : List UInt8) :
    Service → Exchange → List Mark → Service → Exchange → Prop
  /-- Anything happens besides the connection. -/
  | besides {v w : Service} {x : Exchange} {ms : List Mark} : Service.Step id v ms w →
      v.echo.Besides k w.echo → Step id k sent v x ms w x
  /-- Some of the `bytes` arrive. -/
  | arrive {v : Service} {x : Exchange} (bytes : List UInt8) : k ∈ v.echo.tasks →
      x.arrived ++ bytes <+: sent →
      Step id k sent v x [] { v with echo := v.echo.arrive k bytes }
        { x with arrived := x.arrived ++ bytes }
  /-- Behind all of them comes the end. -/
  | halfClose {v : Service} {x : Exchange} : k ∈ v.echo.tasks → x.arrived = sent →
      Step id k sent v x [] { v with echo := v.echo.halfClose k } x
  /-- The server works on the connection, and the client receives what is written. -/
  | serve {v : Service} {x : Exchange} :
      Step id k sent v x (v.echo.finished (v.echo.serve k).1)
        { v with echo := (v.echo.serve k).1 }
        { x with received := x.received ++ (v.echo.serve k).2.1 }

/-- Any number of `Step`s, with all their marks in order. -/
inductive Run (id k : Nat) (sent : List UInt8) (v : Service) (x : Exchange) :
    List Mark → Service → Exchange → Prop
  | refl : Run id k sent v x [] v x
  | tail {ms ns : List Mark} {w u : Service} {y z : Exchange} : Run id k sent v x ms w y →
      Step id k sent w y ns u z → Run id k sent v x (ms ++ ns) u z

variable {id k pid : Nat} {sent : List UInt8} {u v w : Service} {x y z : Exchange}
  {ms ns : List Mark}

/-- It is a step of the server. -/
theorem Step.step (h : Step id k sent v x ms w y) : Service.Step id v ms w := by
  cases h with
  | besides hs _ => exact hs
  | arrive bytes _ _ => exact .arrive k bytes
  | halfClose _ _ => exact .halfClose k
  | serve => exact .serve k

theorem Run.run (h : Run id k sent v x ms w y) : Service.Run id v ms w := by
  induction h with
  | refl => exact .refl
  | tail _ hs ih => exact ih.tail hs.step

/-! ## What the client receives -/

/-- `out` are the answers of the process `pid` to the whole stream `sent`. -/
def Replies (pid : Nat) (sent out : List UInt8) : Prop :=
  ∃ lines rest bad, Cut sent lines rest ∧ Answers pid (lines ++ lastLine rest) out bad

theorem Replies.unique {out out' : List UInt8} (h : Replies pid sent out)
    (h' : Replies pid sent out') : out = out' := by
  obtain ⟨lines, rest, bad, hcut, hans⟩ := h
  obtain ⟨lines', rest', bad', hcut', hans'⟩ := h'
  obtain ⟨rfl, rfl⟩ := Prod.mk.inj (hcut.cutLines_eq.symm.trans hcut'.cutLines_eq)
  exact (hans.unique hans').1

/-- A line that is no text is the last one that matters, so `more` has no answer. -/
theorem Replies.of_bad {bytes rest out l : List UInt8} {lines : List (List UInt8)}
    (hcut : Cut bytes lines rest) (hans : Answers pid lines out (some l)) (more : List UInt8) :
    Replies pid (bytes ++ more) out := by
  refine ⟨_, _, some l, hcut.append (cut_cutLines (rest ++ more)), ?_⟩
  rw [List.append_assoc]
  exact hans.append_of_bad _

theorem exists_replies (pid : Nat) (sent : List UInt8) : ∃ out, Replies pid sent out := by
  obtain ⟨out, bad, hans⟩ := exists_answers pid ((cutLines sent).1 ++ lastLine (cutLines sent).2)
  exact ⟨out, _, _, bad, cut_cutLines sent, hans⟩

/-- How the connection of the client `k` stands at a server with the marks `ms`. -/
inductive Stands (pid k : Nat) (sent : List UInt8) (ms : List Mark) (e : EchoServer)
    (x : Exchange) : Prop
  /-- It was not taken yet. -/
  | waits : k ∉ Mark.begun ms → x = {} → Stands pid k sent ms e x
  /-- It is served. -/
  | served {c : Connection} {bytes : List UInt8} : k ∈ Mark.begun ms → e.connection? k = some c →
      c.echo.HasRead pid bytes x.received → x.arrived = bytes ++ c.arrived → x.arrived <+: sent →
      (c.client = .sending ∨ c.client = .reading ∧ x.arrived = sent) → Stands pid k sent ms e x
  /-- It was served to its end. -/
  | ended : k ∈ Mark.begun ms → e.connection? k = none → Replies pid sent x.received →
      Stands pid k sent ms e x

theorem mem_begun_append (h : k ∈ Mark.begun ms) (ns : List Mark) :
    k ∈ Mark.begun (ms ++ ns) := by
  rw [Mark.begun_append]
  exact List.mem_append_left _ h

/-- A connection `k` that is served was taken. -/
theorem begun_of_task {e : EchoServer} {n : Nat} (ha : e.Accounted n ms) (hk : k ∈ e.tasks) :
    k ∈ Mark.begun ms :=
  ha.perm.subset (List.mem_append_left _ hk)

/-- So a connection `k` that was not taken is not there. -/
theorem connection?_of_not_begun {e : EchoServer} {n : Nat} (ha : e.Accounted n ms)
    (hk : k ∉ Mark.begun ms) : e.connection? k = none :=
  EchoServer.connection?_eq_none_iff.mpr fun hmem => hk (begun_of_task ha hmem)

/-- A connection `k` that was taken is not taken again. -/
theorem accept_of_begun {e : EchoServer} {n : Nat} (ha : e.Accounted n ms)
    (hk : k ∈ Mark.begun ms) : e.accept.1.connection? k = e.connection? k := by
  rcases e.accept_cases with ⟨he, -⟩ | ⟨j, peer, rest, hacc, hw, -, -⟩
  · rw [he]
  · have hj : j ∈ e.queue := by simp [EchoServer.queue, hw]
    have hne : j ≠ k := fun hjk => (List.nodup_append.mp ha.nodup).2.2 k hk j hj hjk.symm
    rw [EchoServer.connection?_accept hacc hw, if_neg hne, Option.or_none]

/-- What happens besides a connection `k` that was taken leaves it alone. -/
theorem besides_of_begun {e e' : EchoServer} {n : Nat} (ha : e.Accounted n ms)
    (hk : k ∈ Mark.begun ms) (h : e.Besides k e') : e'.connection? k = e.connection? k := by
  rcases h.connection?_eq with h | rfl
  · exact h
  · exact accept_of_begun ha hk

/-- **Step.** What happens besides the connection `k` changes nothing for its client. -/
theorem Stands.besides (h : Stands pid k sent ms v.echo x)
    (ha : v.echo.Accounted v.clients ms) (hl : v.echo.label = EchoServer.labelOf pid)
    (hs : Service.Step id v ns w) (hb : v.echo.Besides k w.echo) :
    Stands pid k sent (ms ++ ns) w.echo x := by
  cases h with
  | waits hk hx =>
    rcases hs.begun_cases with hns | ⟨hw, hns⟩
    · exact .waits (by rwa [Mark.begun_append, hns, List.append_nil]) hx
    rw [hw, hns]
    rcases v.echo.accept_cases with ⟨-, ht⟩ | ⟨j, peer, rest, hacc, hwait, -, ht⟩
    · exact .waits (by rwa [ht, List.append_nil]) hx
    rw [ht]
    by_cases hj : j = k
    · -- The connection is taken: it was not served before, as it was not taken before.
      subst hj
      have hc := EchoServer.connection?_accept hacc hwait j
      rw [connection?_of_not_begun ha hk, if_pos rfl, Option.none_or, hl] at hc
      subst hx
      exact .served (by simp [Mark.begun]) hc (Echo.hasRead_nil pid) rfl List.nil_prefix (.inl rfl)
    · refine .waits ?_ hx
      rw [Mark.begun_append, List.mem_append, not_or]
      exact ⟨hk, by simpa [Mark.begun] using Ne.symm hj⟩
  | served hk hc hread harrived hsent hclient =>
    exact .served (mem_begun_append hk ns) ((besides_of_begun ha hk hb).trans hc) hread harrived
      hsent hclient
  | ended hk hc hreply =>
    exact .ended (mem_begun_append hk ns) ((besides_of_begun ha hk hb).trans hc) hreply

/-- **Step.** Work on the connection `k` sends its client the next answers. -/
theorem Stands.serve (h : Stands pid k sent ms v.echo x) (ha : v.echo.Accounted v.clients ms) :
    Stands pid k sent (ms ++ v.echo.finished (v.echo.serve k).1) (v.echo.serve k).1
      { x with received := x.received ++ (v.echo.serve k).2.1 } := by
  have hsame : v.echo.connection? k = none → (v.echo.serve k).1 = v.echo ∧
      ({ x with received := x.received ++ (v.echo.serve k).2.1 } : Exchange) = x := fun hnone => by
    rw [EchoServer.serve_of_none hnone, List.append_nil]
    exact ⟨rfl, rfl⟩
  cases h with
  | waits hk hx =>
    have hnone := connection?_of_not_begun ha hk
    rw [(hsame hnone).1, (hsame hnone).2, EchoServer.finished_of_tasks_eq rfl, List.append_nil]
    exact .waits hk hx
  | ended hk hc hreply =>
    rw [(hsame hc).1, (hsame hc).2]
    exact .ended (mem_begun_append hk _) hc hreply
  | @served c bytes hk hc hread harrived hsent hclient =>
    have hk' := mem_begun_append hk (v.echo.finished (v.echo.serve k).1)
    rcases hclient with hsending | ⟨hreading, hall⟩
    -- More may come: the connection goes on, unless a line is no text.
    · obtain ⟨lines, rest, bad, hcut, hans, hgoes, hends⟩ :=
        Connection.work_sending hread hsending
      cases bad with
      | none =>
        obtain ⟨hend, hnext⟩ := hgoes rfl
        obtain ⟨hserver, hout⟩ := EchoServer.serve_of_goes hc hend
        rw [hout]
        exact .served hk' hserver hnext (harrived.trans (List.append_nil _).symm) hsent
          (.inl hsending)
      | some l =>
        obtain ⟨ending, hend, -⟩ := hends l rfl
        obtain ⟨hserver, hout⟩ := EchoServer.serve_of_ends hc hend
        obtain ⟨more, rfl⟩ := hsent
        rw [hout]
        exact .ended hk' hserver (harrived ▸ .of_bad hcut hans more)
    -- Everything has come, so what is read is the whole of `sent`, and the connection ends.
    · obtain ⟨lines, rest, bad, ending, hcut, hans, hend, -⟩ :=
        Connection.work_reading hread hreading
      obtain ⟨hserver, hout⟩ := EchoServer.serve_of_ends hc hend
      rw [hout]
      rw [← harrived, hall] at hcut
      exact .ended hk' hserver ⟨lines, rest, bad, hcut, hans⟩

/-- **Step.** And so the connection `Stands` after every step. -/
theorem stands_step (h : Stands pid k sent ms v.echo x)
    (ha : v.echo.Accounted v.clients ms) (hl : v.echo.label = EchoServer.labelOf pid)
    (hs : Step id k sent v x ns w y) : Stands pid k sent (ms ++ ns) w.echo y := by
  have htaken : k ∈ v.echo.tasks → ∃ c bytes, v.echo.connection? k = some c ∧
      k ∈ Mark.begun ms ∧ c.echo.HasRead pid bytes x.received ∧ x.arrived = bytes ++ c.arrived ∧
      x.arrived <+: sent ∧ (c.client = .sending ∨ c.client = .reading ∧ x.arrived = sent) := by
    intro hmem
    cases h with
    | waits hk _ => exact (hk (begun_of_task ha hmem)).elim
    | ended _ hc _ => exact (EchoServer.connection?_eq_none_iff.mp hc hmem).elim
    | served hk hc hread harrived hsent hclient =>
      exact ⟨_, _, hc, hk, hread, harrived, hsent, hclient⟩
  cases hs with
  | besides hs hb => exact h.besides ha hl hs hb
  | serve => exact h.serve ha
  | arrive bytes hmem hfits =>
    obtain ⟨c, read, hc, hk, hread, harrived, hsent, hclient⟩ := htaken hmem
    rw [List.append_nil]
    refine .served hk (EchoServer.connection?_arrive_self hc bytes) hread ?_ hfits ?_
    · rw [harrived, List.append_assoc]
    · refine hclient.imp_right fun ⟨hreading, hall⟩ => ⟨hreading, ?_⟩
      -- Everything had arrived, so these are no bytes.
      have hlen := hfits.length_le
      rw [hall, List.length_append] at hlen
      rw [hall, List.eq_nil_of_length_eq_zero (l := bytes) (by omega), List.append_nil]
  | halfClose hmem hall =>
    obtain ⟨c, read, hc, hk, hread, harrived, hsent, hclient⟩ := htaken hmem
    rw [List.append_nil]
    exact .served hk (EchoServer.connection?_halfClose_self hc) hread harrived hsent
      (.inr ⟨rfl, hall⟩)

/-- **Run.** And so at every moment from the start of a server on. -/
theorem stands_run {s s' : System} {config : Config} {l : Listener} {i : Instance}
    {events : List Event} (hserve : s.serve config l = ⟨.ok i, s', events⟩)
    (hrun : Run id k sent (Service.ofInstance s' 0 i) {} ms v x) :
    Stands s.self.pid k sent ms v.echo x ∧ v.echo.Accounted v.clients ms ∧
      v.echo.label = EchoServer.labelOf s.self.pid := by
  have hecho := (Service.of_serve hserve).2.2.1
  induction hrun with
  | refl =>
    show Stands s.self.pid k sent [] i.echo {} ∧ i.echo.Accounted 0 [] ∧ i.echo.label = _
    rw [hecho]
    exact ⟨.waits List.not_mem_nil rfl, .start _, rfl⟩
  | tail _ hs ih =>
    obtain ⟨hstands, ha, hl⟩ := ih
    exact ⟨stands_step hstands ha hl hs, Service.accounted_step ha hs.step,
      hs.step.label_eq.trans hl⟩

/-! ## What the client receives in the end -/

/-- What a client has received is the beginning of `out`, and all of it once its connection has
ended. As long as it has not ended, it can end in what follows. -/
def Yields (id k : Nat) (sent : List UInt8) (v : Service) (x : Exchange) (out : List UInt8) :
    Prop :=
  x.received <+: out ∧ (k ∉ v.echo.tasks → x.received = out) ∧
    ∃ ns w y, Run id k sent v x ns w y ∧ k ∉ w.echo.tasks ∧ y.received = out

/-- What is left of `sent` arrives, and behind it the end; then the server works on it. -/
theorem Stands.exists_run (h : Stands pid k sent ms v.echo x) (hk : k ∈ Mark.begun ms) (id : Nat) :
    ∃ ns w y, Run id k sent v x ns w y ∧ k ∉ w.echo.tasks ∧ Replies pid sent y.received := by
  cases h with
  | waits hnot _ => exact (hnot hk).elim
  | ended _ hc hreply =>
    exact ⟨_, v, x, .refl, EchoServer.connection?_eq_none_iff.mp hc, hreply⟩
  | @served c bytes _ hc hread harrived hsent _ =>
    obtain ⟨more, rfl⟩ := hsent
    have hc₁ := EchoServer.connection?_arrive_self hc more
    have hc₂ := EchoServer.connection?_halfClose_self hc₁
    have harrive : Step id k (x.arrived ++ more) v x [] _ _ :=
      .arrive more (EchoServer.mem_tasks_of_connection? hc) List.prefix_rfl
    have hclose : Step id k (x.arrived ++ more) { v with echo := v.echo.arrive k more }
        { x with arrived := x.arrived ++ more } [] _ _ :=
      .halfClose (EchoServer.mem_tasks_of_connection? hc₁) rfl
    have hrun := ((Run.refl.tail harrive).tail hclose).tail .serve
    obtain ⟨lines, rest, bad, ending, hcut, hans, hend, -⟩ := Connection.work_reading
      (c := { c with arrived := c.arrived ++ more, client := .reading }) hread rfl
    obtain ⟨hserver, hout⟩ := EchoServer.serve_of_ends hc₂ hend
    refine ⟨_, _, _, hrun, EchoServer.connection?_eq_none_iff.mp hserver, ?_⟩
    rw [hout]
    rw [← List.append_assoc, ← harrived] at hcut
    exact ⟨lines, rest, bad, hcut, hans⟩

theorem Stands.yields (h : Stands pid k sent ms v.echo x) (hk : k ∈ Mark.begun ms)
    {out : List UInt8} (hout : Replies pid sent out) (id : Nat) : Yields id k sent v x out := by
  obtain ⟨ns, w, y, hrun, hend, hreply⟩ := h.exists_run hk id
  have hlast : ∃ ns w y, Run id k sent v x ns w y ∧ k ∉ w.echo.tasks ∧ y.received = out :=
    ⟨ns, w, y, hrun, hend, hreply.unique hout⟩
  cases h with
  | waits hnot _ => exact (hnot hk).elim
  | ended _ _ hreply =>
    obtain rfl := hreply.unique hout
    exact ⟨List.prefix_rfl, fun _ => rfl, hlast⟩
  | @served c bytes _ hc hread harrived hsent _ =>
    refine ⟨?_, fun hnot => (hnot (EchoServer.mem_tasks_of_connection? hc)).elim, hlast⟩
    obtain ⟨lines, rest, hcut, hans, -⟩ := hread
    obtain ⟨lines', rest', bad, hcut', hans'⟩ := hout
    obtain ⟨more, rfl⟩ := hsent
    rw [harrived, List.append_assoc] at hcut'
    obtain ⟨next, rfl, -⟩ := hcut.exists_append hcut'
    rw [List.append_assoc] at hans'
    exact hans.isPrefix hans'

/-- **Isolation.** Two servers have started, in processes with the same number (`hpid`), and since
then steps were taken in any order. A client of each, which the server has taken (`hk₁`, `hk₂`),
sends the same bytes `sent` and then no more; nothing else need agree, and at each moment either
server may be told to stop. Both clients receive the same: what the process answers to `sent`. -/
theorem received_eq {s₁ s₂ s₁' s₂' : System} {config₁ config₂ : Config} {l₁ l₂ : Listener}
    {i₁ i₂ : Instance} {events₁ events₂ : List Event} {id₁ id₂ k₁ k₂ : Nat} {v₁ v₂ : Service}
    {x₁ x₂ : Exchange} {ms₁ ms₂ : List Mark}
    (hserve₁ : s₁.serve config₁ l₁ = ⟨.ok i₁, s₁', events₁⟩)
    (hserve₂ : s₂.serve config₂ l₂ = ⟨.ok i₂, s₂', events₂⟩) (hpid : s₁.self.pid = s₂.self.pid)
    (hrun₁ : Run id₁ k₁ sent (Service.ofInstance s₁' 0 i₁) {} ms₁ v₁ x₁)
    (hrun₂ : Run id₂ k₂ sent (Service.ofInstance s₂' 0 i₂) {} ms₂ v₂ x₂)
    (hk₁ : k₁ ∈ Mark.begun ms₁) (hk₂ : k₂ ∈ Mark.begun ms₂) :
    (k₁ ∉ v₁.echo.tasks → k₂ ∉ v₂.echo.tasks → x₁.received = x₂.received) ∧
      ∃ out, Replies s₁.self.pid sent out ∧ Yields id₁ k₁ sent v₁ x₁ out ∧
        Yields id₂ k₂ sent v₂ x₂ out := by
  obtain ⟨out, hout⟩ := exists_replies s₁.self.pid sent
  have h₁ := (stands_run hserve₁ hrun₁).1.yields hk₁ hout id₁
  have h₂ := (stands_run hserve₂ hrun₂).1.yields hk₂ (hpid ▸ hout) id₂
  exact ⟨fun hend₁ hend₂ => (h₁.2.1 hend₁).trans (h₂.2.1 hend₂).symm, out, hout, h₁, h₂⟩

/-- A client that is alone at its server, and one that has connected behind a client that sends no
text. Its own bytes come in two parts, and in between its server is told to stop. -/
theorem received_eq_stopped :
    ∃ v₁ x₁ v₂ x₂ ms₁ ms₂,
      Run 0 0 [104, 105, 10] (.ofInstance Service.unixStart.state 0 Service.unixInstance) {} ms₁ v₁
        x₁ ∧
      Run 0 1 [104, 105, 10] (.ofInstance Service.unixStart.state 0 Service.unixInstance) {} ms₂ v₂
        x₂ ∧
      0 ∈ Mark.begun ms₁ ∧ 1 ∈ Mark.begun ms₂ ∧ 0 ∉ v₁.echo.tasks ∧ 1 ∉ v₂.echo.tasks ∧
      v₂.acceptor = none ∧ x₁.received = x₂.received := by
  let fresh : Service := .ofInstance Service.unixStart.state 0 Service.unixInstance
  let hi : List UInt8 := [104, 105, 10]
  -- The first client connects, is taken, and sends everything at once.
  let called : Service := { fresh with echo := fresh.echo.connect 0 "unix", clients := 1 }
  let took : Service := { called with echo := called.echo.accept.1 }
  let sent : Service := { took with echo := took.echo.arrive 0 hi }
  let closed : Service := { sent with echo := sent.echo.halfClose 0 }
  have hcalled : Step 0 0 hi fresh {} [] called {} := .besides (.connect "unix") (.connect 0 "unix")
  have htook : Step 0 0 hi called {} [.begins 0] took {} :=
    .besides (.accept (l := ⟨.unix, 4⟩) rfl) .accept
  have hsent : Step 0 0 hi took {} [] sent { arrived := hi } :=
    .arrive hi (.head _) List.prefix_rfl
  have hclosed : Step 0 0 hi sent { arrived := hi } [] closed { arrived := hi } :=
    .halfClose (.head _) rfl
  have hrun₁ := ((((Run.refl.tail hcalled).tail htook).tail hsent).tail hclosed).tail .serve
  have hend₁ : 0 ∉ (closed.echo.serve 0).1.tasks := by decide
  -- The second one is taken behind another, whose connection fails.
  let queued : Service := { called with echo := called.echo.connect 1 "unix", clients := 2 }
  let first : Service := { queued with echo := queued.echo.accept.1 }
  let second : Service := { first with echo := first.echo.accept.1 }
  let noise : Service := { second with echo := second.echo.arrive 0 [255, 10] }
  let failed : Service := { noise with echo := (noise.echo.serve 0).1 }
  let part : Service := { failed with echo := failed.echo.arrive 1 [104] }
  let t := Service.unixInstance.coordinator.handle System.surroundings part.system .shutdown
  let told : Service := { part with system := t.state, stage := .serving t.coordinator }
  let stopped : Service := told.settle t.coordinator
  let rest : Service := { stopped with echo := stopped.echo.arrive 1 [105, 10] }
  let done : Service := { rest with echo := rest.echo.halfClose 1 }
  have hcalled' : Step 0 1 hi fresh {} [] called {} :=
    .besides (.connect "unix") (.connect 0 "unix")
  have hqueued : Step 0 1 hi called {} [] queued {} :=
    .besides (.connect "unix") (.connect 1 "unix")
  have hfirst : Step 0 1 hi queued {} [.begins 0] first {} :=
    .besides (.accept (l := ⟨.unix, 4⟩) rfl) .accept
  have hsecond : Step 0 1 hi first {} [.begins 1] second {} :=
    .besides (.accept (l := ⟨.unix, 4⟩) rfl) .accept
  have hnoise : Step 0 1 hi second {} [] noise {} :=
    .besides (.arrive 0 [255, 10]) (.arrive [255, 10] Nat.one_ne_zero)
  have hfailed : Step 0 1 hi noise {} [.ends 0] failed {} :=
    .besides (.serve 0) (.serve Nat.one_ne_zero)
  have hpart : Step 0 1 hi failed {} [] part { arrived := [104] } :=
    .arrive [104] (.head _) ⟨[105, 10], rfl⟩
  have htold : Step 0 1 hi part { arrived := [104] } [] told { arrived := [104] } :=
    .besides (.shutdown rfl rfl) .still
  have hstopped : Step 0 1 hi told { arrived := [104] } [] stopped { arrived := [104] } :=
    .besides (.settle rfl) .stop
  have hrest : Step 0 1 hi stopped { arrived := [104] } [] rest { arrived := hi } :=
    .arrive [105, 10] (.head _) List.prefix_rfl
  have hdone : Step 0 1 hi rest { arrived := hi } [] done { arrived := hi } :=
    .halfClose (.head _) rfl
  have htaken := (((Run.refl.tail hcalled').tail hqueued).tail hfirst).tail hsecond
  have htalk := (((htaken.tail hnoise).tail hfailed).tail hpart).tail htold
  have hrun₂ := (((htalk.tail hstopped).tail hrest).tail hdone).tail .serve
  have hend₂ : 1 ∉ (done.echo.serve 1).1.tasks := by decide
  obtain ⟨hsame, -⟩ := received_eq Service.unixStart_eq Service.unixStart_eq rfl hrun₁ hrun₂
    (by decide) (by decide)
  exact ⟨_, _, _, _, _, _, hrun₁, hrun₂, by decide, by decide, hend₁, hend₂, rfl, hsame hend₁ hend₂⟩

end Exchange

end Handoff
