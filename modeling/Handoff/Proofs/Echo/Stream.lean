import Handoff.Proofs.Echo.Accounting
import Handoff.Proofs.Echo.Lines

/-!
# A connection and its byte stream

What a client receives depends on the bytes that it sends, and on nothing else: neither on the reads
in which the server takes them, nor on what it does in between.

* `Echo.HasRead`: an echo that has read some bytes and answered their lines.
* `Connection.work_sending`, `Connection.work_reading`: the work on a connection goes on with the
  answers, and ends it at a bad line or at the end of the input.
* `EchoServer.connection?`: the connection with a number, and what the steps do to it.
* `Attended.echoes_stream`: a connection from the moment at which it is taken to its end.
-/

namespace Handoff

variable {pid : Nat} {bytes out : List UInt8} {ls lines : List (List UInt8)} {l : List UInt8}
  {bad : Option (List UInt8)} {e : Echo} {c : Connection}

/-- How a connection ends that has sent `n` lines: it fails at the first line that is no text, and
is `closed` otherwise. -/
inductive Ends (n : Nat) : Option (List UInt8) → Ending → Prop
  /-- All of them were answered. -/
  | closed : Ends n none (.closed n)
  /-- One was bad. -/
  | failed {l : List UInt8} {error : Utf8.Error} : Utf8.check (chomp l) = some error →
      Ends n (some l) (.failed (.illFormed error))

/-- If the answers end at the bad line `l`, the echo has a fault, and with it the connection
fails. -/
theorem Answers.exists_ends (h : Answers pid ls out (some l)) (n : Nat) :
    ∃ error, faultOf (some l) = some error ∧ Ends n (some l) (.failed (.illFormed error)) := by
  have hfault : faultOf (some l) ≠ none := fun hnone => by
    cases h.faultOf_eq_none_iff.mp hnone
  obtain ⟨error, herror⟩ := Option.ne_none_iff_exists'.mp hfault
  exact ⟨error, herror, .failed herror⟩

theorem Ends.eq_of_bad {m n : Nat} {x y : Ending} (hx : Ends m (some l) x)
    (hy : Ends n (some l) y) : x = y := by
  cases hx with
  | failed hx =>
    cases hy with
    | failed hy =>
      obtain rfl := Option.some.inj (hx.symm.trans hy)
      rfl

/-! ## One echo -/

namespace Echo

/-- The echo `e` of the process `pid` has read `bytes` and has answered their lines by `out`: it
keeps what stands behind the last newline as its `rest`. -/
def HasRead (pid : Nat) (e : Echo) (bytes out : List UInt8) : Prop :=
  ∃ lines rest, Cut bytes lines rest ∧ Answers pid lines out none ∧
    e = { label := EchoServer.labelOf pid, rest := rest, lines := lines.length }

theorem hasRead_nil (pid : Nat) : HasRead pid { label := EchoServer.labelOf pid } [] [] :=
  ⟨[], [], .rest List.not_mem_nil, .done, rfl⟩

namespace HasRead

/-- It reads `more` bytes, and answers the lines that they complete. A bad one among them is its
fault. -/
theorem feed (h : e.HasRead pid bytes out) (more : List UInt8) :
    ∃ e' answers lines rest bad, e.feed more = (e', answers) ∧ Cut (bytes ++ more) lines rest ∧
      Answers pid lines (out ++ answers) bad ∧ e'.fault = faultOf bad ∧
      (bad = none → e'.HasRead pid (bytes ++ more) (out ++ answers)) := by
  obtain ⟨lines, rest, hcut, hans, rfl⟩ := h
  -- The reads may end anywhere: the kept `rest` and `more` are cut together.
  have hnew := cut_cutLines (rest ++ more)
  generalize (cutLines (rest ++ more)).1 = ls, (cutLines (rest ++ more)).2 = r at hnew
  obtain ⟨answers, bad, hanswers⟩ := exists_answers pid ls
  let e : Echo := { label := EchoServer.labelOf pid, rest := r, lines := lines.length }
  obtain ⟨hout, hfault, hcount⟩ := answerAll_of_answers (e := e) hanswers rfl rfl
  refine ⟨(e.answerAll ls).1, answers, lines ++ ls, r, bad, ?_, hcut.append hnew,
    hans.append hanswers, hfault, ?_⟩
  · rw [feed_of_cut hnew, ← hout]
  · rintro rfl
    refine ⟨lines ++ ls, r, hcut.append hnew, hans.append hanswers, ?_⟩
    rw [hcount rfl, List.length_append]

/-- The input ends, and with it the `lastLine`. -/
theorem finish (h : e.HasRead pid bytes out) :
    ∃ e' answers lines rest bad, e.finish = (e', answers) ∧ Cut bytes lines rest ∧
      Answers pid (lines ++ lastLine rest) (out ++ answers) bad ∧ e'.fault = faultOf bad ∧
      (bad = none → e'.lines = (lines ++ lastLine rest).length) := by
  obtain ⟨lines, rest, hcut, hans, rfl⟩ := h
  obtain ⟨answers, bad, hanswers⟩ := exists_answers pid (lastLine rest)
  let e : Echo := { label := EchoServer.labelOf pid, rest := [], lines := lines.length }
  obtain ⟨hout, hfault, hcount⟩ := answerAll_of_answers (e := e) hanswers rfl rfl
  refine ⟨(e.answerAll (lastLine rest)).1, answers, lines, rest, bad, ?_, hcut,
    hans.append hanswers, hfault, ?_⟩
  · rw [finish_eq, ← hout]
  · rintro rfl
    rw [hcount rfl, List.length_append]

end HasRead

end Echo

/-! ## One connection -/

namespace Connection

/-- The answers to a client that reads them, `sending` or `reading`, are written. -/
theorem conclude_eq (h : c.client = .sending ∨ c.client = .reading) (e : Echo) :
    c.conclude (e, out) = ⟨e, out, e.fault.map fun f => .failed (.illFormed f)⟩ := by
  rcases h with h | h <;> cases hf : e.fault <;> simp [conclude, write, h, hf]

/-- **Work.** While the client is `sending`, the lines of `bytes ++ c.arrived` are answered. The
connection fails at a bad line, and otherwise goes on with an echo that `HasRead` all of it. -/
theorem work_sending (h : c.echo.HasRead pid bytes out) (hc : c.client = .sending) :
    ∃ lines rest bad, Cut (bytes ++ c.arrived) lines rest ∧
      Answers pid lines (out ++ c.work.written) bad ∧
      (bad = none → c.work.ending = none ∧
        c.work.echo.HasRead pid (bytes ++ c.arrived) (out ++ c.work.written)) ∧
      ∀ l, bad = some l → ∃ ending, c.work.ending = some ending ∧ Ends lines.length bad ending := by
  obtain ⟨e, answers, lines, rest, bad, hfeed, hcut, hans, hfault, hnext⟩ := h.feed c.arrived
  have hend : c.inputEnd? = none := by simp [inputEnd?, hc]
  have hwork : c.work = ⟨e, answers, (faultOf bad).map fun f => .failed (.illFormed f)⟩ := by
    simp only [work, hfeed, conclude_eq (.inl hc), hend, hfault]
    cases faultOf bad <;> rfl
  rw [hwork]
  refine ⟨lines, rest, bad, hcut, hans, ?_, ?_⟩
  · rintro rfl
    exact ⟨rfl, hnext rfl⟩
  · rintro l rfl
    obtain ⟨error, herror, hends⟩ := hans.exists_ends lines.length
    exact ⟨_, by rw [herror]; rfl, hends⟩

/-- **Work.** Once the client has sent everything and is `reading`, all of it is answered, up to the
`lastLine`, and the connection ends. -/
theorem work_reading (h : c.echo.HasRead pid bytes out) (hc : c.client = .reading) :
    ∃ lines rest bad ending, Cut (bytes ++ c.arrived) lines rest ∧
      Answers pid (lines ++ lastLine rest) (out ++ c.work.written) bad ∧
      c.work.ending = some ending ∧ Ends (lines ++ lastLine rest).length bad ending := by
  obtain ⟨e, answers, lines, rest, bad, hfeed, hcut, hans, hfault, hnext⟩ := h.feed c.arrived
  have hend : c.inputEnd? = some (.ok ()) := by simp [inputEnd?, hc]
  cases bad with
  | some l =>
    obtain ⟨error, herror, hends⟩ := hans.exists_ends (lines ++ lastLine rest).length
    have hwork : c.work = ⟨e, answers, some (.failed (.illFormed error))⟩ := by
      simp [work, hfeed, conclude_eq (.inr hc), hfault, herror]
    rw [hwork]
    exact ⟨lines, rest, some l, _, hcut, hans.append_of_bad _, rfl, hends⟩
  | none =>
    obtain ⟨e', last, lines, rest, bad, hfinish, hcut, hans, hfault', hcount⟩ := (hnext rfl).finish
    have hwork : c.work = ⟨e', answers ++ last,
        some (((faultOf bad).map fun f => .failed (.illFormed f)).getD (.closed e'.lines))⟩ := by
      simp only [work, hfeed, conclude_eq (.inr hc), hend, hfault]
      simp [faultOf, hfinish, hfault']
    rw [hwork, ← List.append_assoc]
    refine ⟨lines, rest, bad, _, hcut, hans, rfl, ?_⟩
    cases bad with
    | none =>
      rw [← hcount rfl]
      exact .closed
    | some l =>
      obtain ⟨error, herror, hends⟩ := hans.exists_ends (lines ++ lastLine rest).length
      rw [herror]
      exact hends

end Connection

/-! ## The connections of a server -/

namespace EchoServer

variable {e : EchoServer} {id k : Nat} {peer : String} {rest : List (Nat × String)}
  {f : Connection → Connection}

def connection? (e : EchoServer) (id : Nat) : Option Connection :=
  e.connections.find? (·.id == id)

theorem connection?_eq_none_iff : e.connection? id = none ↔ id ∉ e.tasks := by
  simp [connection?, tasks]

theorem mem_tasks_of_connection? (h : e.connection? id = some c) : id ∈ e.tasks := by
  by_contra hid
  rw [connection?_eq_none_iff.mpr hid] at h
  cases h

theorem id_of_connection? (h : e.connection? id = some c) : c.id = id := by
  simpa using List.find?_some h

/-- The connection `id` that is taken is served, and the others are left alone. -/
theorem connection?_accept (ha : e.accepting = true) (hw : e.waiting = (id, peer) :: rest)
    (k : Nat) : e.accept.1.connection? k = (e.connection? k).or
      (if id = k then some { id := id, peer := peer, echo := { label := e.label } } else none) := by
  simp only [connection?, accept, ha, hw, List.find?_append, List.find?_singleton, beq_iff_eq]

theorem connection?_modify (hf : ∀ c, (f c).id = c.id) (k : Nat) :
    (e.modify id f).connection? k =
      (e.connection? k).map fun c => if c.id = id then f c else c := by
  have hid : ∀ c : Connection, (if c.id = id then f c else c).id = c.id := fun c => by
    split
    exacts [hf c, rfl]
  have hsame : ((·.id == k) ∘ fun c : Connection => if c.id = id then f c else c) =
      (·.id == k) := by
    funext c
    rw [Function.comp_apply, hid]
  rw [connection?, modify, List.find?_map, hsame, connection?]

theorem connection?_modify_self (hf : ∀ c, (f c).id = c.id) :
    (e.modify id f).connection? id = (e.connection? id).map f := by
  rw [connection?_modify hf]
  refine Option.map_congr fun c hc => ?_
  rw [if_pos (id_of_connection? hc)]

theorem connection?_modify_of_ne (hf : ∀ c, (f c).id = c.id) (h : k ≠ id) :
    (e.modify id f).connection? k = e.connection? k := by
  rw [connection?_modify hf]
  refine (Option.map_congr fun c hc => ?_).trans Option.map_id_apply
  rw [if_neg fun hid => h ((id_of_connection? hc).symm.trans hid)]
  rfl

theorem connection?_arrive_self (h : e.connection? id = some c) (bytes : List UInt8) :
    (e.arrive id bytes).connection? id = some { c with arrived := c.arrived ++ bytes } := by
  simp [arrive, connection?_modify_self, h]

theorem connection?_halfClose_self (h : e.connection? id = some c) :
    (e.halfClose id).connection? id = some { c with client := .reading } := by
  simp [halfClose, connection?_modify_self, h]

theorem connection?_forget_self : (e.forget id).connection? id = none := by
  simp [connection?, forget]

theorem connection?_forget_of_ne (h : k ≠ id) : (e.forget id).connection? k = e.connection? k := by
  simp only [connection?, forget, List.find?_filter]
  congr 1
  funext c
  by_cases hc : c.id = k <;> simp [hc, h]

theorem serve_of_none (h : e.connection? id = none) : e.serve id = (e, [], []) := by
  rw [connection?] at h
  simp [serve, h]

/-- If `work` brings no ending, the connection stays, with the echo that `work` leaves. -/
theorem serve_of_goes (h : e.connection? id = some c) (hw : c.work.ending = none) :
    (e.serve id).1.connection? id = some { c with arrived := [], echo := c.work.echo } ∧
      (e.serve id).2 = (c.work.written, []) := by
  have hserve : e.serve id =
      (e.modify id fun d => { d with arrived := [], echo := c.work.echo }, c.work.written, []) := by
    rw [connection?] at h
    simp [serve, h, hw]
  rw [hserve]
  exact ⟨by simp [connection?_modify_self, h], rfl⟩

/-- If `work` brings an ending, the connection is gone and its event is given. -/
theorem serve_of_ends {ending : Ending} (h : e.connection? id = some c)
    (hw : c.work.ending = some ending) :
    (e.serve id).1.connection? id = none ∧
      (e.serve id).2 = (c.work.written, [ending.event c.peer]) := by
  have hserve : e.serve id = (e.forget id, c.work.written, [ending.event c.peer]) := by
    rw [connection?] at h
    simp [serve, h, hw]
  rw [hserve]
  exact ⟨connection?_forget_self, rfl⟩

/-- Work on the connection `id` leaves the connection `k` alone. -/
theorem connection?_serve_of_ne (h : k ≠ id) :
    (e.serve id).1.connection? k = e.connection? k := by
  unfold serve
  split
  · rfl
  · dsimp only
    split
    · exact connection?_forget_of_ne h
    · exact connection?_modify_of_ne (fun _ => rfl) h

end EchoServer

/-! ## From the first byte to the end -/

/-- A server, with what it has `written` to one of its connections and the `events` of that one. -/
structure Attended where
  server : EchoServer
  /-- What was written to the client. -/
  written : List UInt8 := []
  events : List Event := []

namespace Attended

variable {a : Attended} {id : Nat} {peer : String} {ending : Ending}

/-- The server works on the connection `id`. -/
def work (id : Nat) (a : Attended) : Attended :=
  let (e, out, events) := a.server.serve id
  ⟨e, a.written ++ out, a.events ++ events⟩

/-- It reads `bytes`. -/
def read (id : Nat) (a : Attended) (bytes : List UInt8) : Attended :=
  work id { a with server := a.server.arrive id bytes }

/-- It reads the `last` bytes, if any are left, and with them the end of the input. -/
def close (id : Nat) (a : Attended) (last : List UInt8) : Attended :=
  work id { a with server := (a.server.arrive id last).halfClose id }

/-- The server `e` takes a connection and makes the `reads`, one after the other. -/
def afterReads (e : EchoServer) (id : Nat) (reads : List (List UInt8)) : Attended :=
  reads.foldl (read id) { server := e.accept.1 }

/-- How a connection stands of which `bytes` were read: it waits for more, or it has failed at a
line that is no text. -/
inductive Stands (pid id : Nat) (peer : String) (bytes : List UInt8) (a : Attended) : Prop
  /-- All whole lines were answered. -/
  | serving {c : Connection} : a.server.connection? id = some c → c.peer = peer →
      c.client = .sending → c.arrived = [] → c.echo.HasRead pid bytes a.written → a.events = [] →
      Stands pid id peer bytes a
  /-- A line was bad. -/
  | failed {lines : List (List UInt8)} {rest l : List UInt8} {ending : Ending} {n : Nat} :
      a.server.connection? id = none → Cut bytes lines rest → Answers pid lines a.written (some l) →
      Ends n (some l) ending → a.events = [ending.event peer] → Stands pid id peer bytes a

theorem work_of_none (h : a.server.connection? id = none) : a.work id = a := by
  simp [work, EchoServer.serve_of_none h]

theorem work_of_goes (h : a.server.connection? id = some c) (hw : c.work.ending = none) :
    (a.work id).server.connection? id = some { c with arrived := [], echo := c.work.echo } ∧
      (a.work id).written = a.written ++ c.work.written ∧ (a.work id).events = a.events := by
  obtain ⟨hserver, hout⟩ := EchoServer.serve_of_goes h hw
  exact ⟨hserver, by simp [work, hout], by simp [work, hout]⟩

theorem work_of_ends (h : a.server.connection? id = some c) (hw : c.work.ending = some ending) :
    (a.work id).server.connection? id = none ∧
      (a.work id).written = a.written ++ c.work.written ∧
      (a.work id).events = a.events ++ [ending.event c.peer] := by
  obtain ⟨hserver, hout⟩ := EchoServer.serve_of_ends h hw
  exact ⟨hserver, by simp [work, hout], by simp [work, hout]⟩

theorem read_of_none (h : a.server.connection? id = none) (more : List UInt8) :
    (a.read id more).server.connection? id = none ∧ (a.read id more).written = a.written ∧
      (a.read id more).events = a.events := by
  have harrive : (a.server.arrive id more).connection? id = none := by
    simp [EchoServer.arrive, EchoServer.connection?_modify_self, h]
  rw [read, work_of_none harrive]
  exact ⟨harrive, rfl, rfl⟩

theorem close_of_none (h : a.server.connection? id = none) (last : List UInt8) :
    (a.close id last).server.connection? id = none ∧ (a.close id last).written = a.written ∧
      (a.close id last).events = a.events := by
  have hclose : ((a.server.arrive id last).halfClose id).connection? id = none := by
    simp [EchoServer.halfClose, EchoServer.arrive, EchoServer.connection?_modify_self, h]
  rw [close, work_of_none hclose]
  exact ⟨hclose, rfl, rfl⟩

/-- **Step.** A read of `more` bytes goes on with the answers. -/
theorem Stands.read (h : a.Stands pid id peer bytes) (more : List UInt8) :
    (a.read id more).Stands pid id peer (bytes ++ more) := by
  cases h with
  | @serving c hc hpeer hclient harrived hread hevents =>
    have harrive := EchoServer.connection?_arrive_self hc more
    rw [harrived, List.nil_append] at harrive
    obtain ⟨lines, rest, bad, hcut, hans, hgoes, hends⟩ :=
      Connection.work_sending (c := { c with arrived := more }) hread hclient
    cases bad with
    | none =>
      obtain ⟨hend, hnext⟩ := hgoes rfl
      obtain ⟨hserver, hwritten, hlog⟩ := work_of_goes (a := { a with server := _ }) harrive hend
      exact .serving hserver hpeer hclient rfl (hwritten ▸ hnext) (hlog.trans hevents)
    | some l =>
      obtain ⟨ending, hend, hends⟩ := hends l rfl
      obtain ⟨hserver, hwritten, hlog⟩ := work_of_ends (a := { a with server := _ }) harrive hend
      refine .failed hserver hcut (hwritten ▸ hans) hends (hlog.trans ?_)
      rw [hevents, ← hpeer, List.nil_append]
  | @failed lines rest l ending n hc hcut hans hends hevents =>
    obtain ⟨hserver, hwritten, hlog⟩ := read_of_none hc more
    exact .failed hserver (hcut.append (cut_cutLines _)) (hwritten ▸ hans.append_of_bad _) hends
      (hlog.trans hevents)

/-- **Run.** So after any `reads` the connection stands as the bytes of all of them tell. -/
theorem Stands.reads (h : a.Stands pid id peer bytes) (reads : List (List UInt8)) :
    (reads.foldl (Attended.read id) a).Stands pid id peer (bytes ++ reads.flatten) := by
  induction reads generalizing a bytes with
  | nil => simpa using h
  | cons more reads ih => simpa using ih (h.read more)

/-- How a connection is left at the end of its input, whether it was `serving` or had `failed`. -/
theorem Stands.close (h : a.Stands pid id peer bytes) (last : List UInt8) :
    ∃ lines rest bad ending, Cut (bytes ++ last) lines rest ∧
      Answers pid (lines ++ lastLine rest) (a.close id last).written bad ∧
      Ends (lines ++ lastLine rest).length bad ending ∧
      (a.close id last).events = [ending.event peer] ∧
      (a.close id last).server.connection? id = none := by
  cases h with
  | @serving c hc hpeer hclient harrived hread hevents =>
    have harrive := EchoServer.connection?_arrive_self hc last
    have hclose := EchoServer.connection?_halfClose_self harrive
    obtain ⟨lines, rest, bad, ending, hcut, hans, hend, hends⟩ := Connection.work_reading
      (c := { c with arrived := c.arrived ++ last, client := .reading }) hread rfl
    obtain ⟨hserver, hwritten, hlog⟩ := work_of_ends (a := { a with server := _ }) hclose hend
    rw [harrived, List.nil_append] at hcut
    refine ⟨lines, rest, bad, ending, hcut, hwritten ▸ hans, hends, hlog.trans ?_, hserver⟩
    rw [hevents, ← hpeer, List.nil_append]
  | @failed lines rest l ending n hc hcut hans hends hevents =>
    obtain ⟨hserver, hwritten, hlog⟩ := close_of_none hc last
    refine ⟨_, _, some l, ending, hcut.append (cut_cutLines _), ?_, ?_, hlog.trans hevents, hserver⟩
    · rw [hwritten, List.append_assoc]
      exact hans.append_of_bad _
    · cases hends with
      | failed hcheck => exact .failed hcheck

/-- The connection `id` that was just taken waits for its first bytes. -/
theorem stands_accept {e : EchoServer} {waiting : List (Nat × String)} (ha : e.accepting = true)
    (hw : e.waiting = (id, peer) :: waiting) (hnew : id ∉ e.tasks)
    (hl : e.label = EchoServer.labelOf pid) :
    Stands pid id peer [] { server := e.accept.1 } := by
  have hc := EchoServer.connection?_accept ha hw id
  rw [EchoServer.connection?_eq_none_iff.mpr hnew, if_pos rfl, Option.none_or] at hc
  exact .serving hc rfl rfl rfl (hl ▸ Echo.hasRead_nil pid) rfl

/-- **Echo.** A server takes the connection `id` (`ha`, `hw`) under a number that is free (`hnew`),
and makes any `reads` of it, up to the end of the input behind the `last` one. It has then answered
the `lines` of all the bytes, cut behind each newline, up to the first one that is no text, `bad`.
If there is none it has closed the connection and counted the lines, and otherwise the connection
has failed at that line. After the reads `front` exactly the `whole` lines of their bytes are
answered, so these answers are the first ones of all, and the connection is still served unless one
of these lines is bad. -/
theorem echoes_stream {e : EchoServer} {waiting : List (Nat × String)} (ha : e.accepting = true)
    (hw : e.waiting = (id, peer) :: waiting) (hnew : id ∉ e.tasks)
    (hl : e.label = EchoServer.labelOf pid) (reads : List (List UInt8)) (last : List UInt8) :
    let o := (afterReads e id reads).close id last
    ∃ lines rest bad ending, Cut (reads.flatten ++ last) lines rest ∧
      Answers pid (lines ++ lastLine rest) o.written bad ∧
      Ends (lines ++ lastLine rest).length bad ending ∧
      o.events = [ending.event peer] ∧ id ∉ o.server.tasks ∧
      ∀ front back, reads = front ++ back → ∃ whole tail bad',
        let a := afterReads e id front
        Cut front.flatten whole tail ∧ Answers pid whole a.written bad' ∧ a.written <+: o.written ∧
          (bad' = none ∧ id ∈ a.server.tasks ∧ a.events = [] ∨
            bad' ≠ none ∧ bad' = bad ∧ id ∉ a.server.tasks ∧ a.events = o.events ∧
              a.written = o.written) := by
  -- The invariant is at hand after every front of the reads, and the end is one more step.
  have hstands : ∀ front, (afterReads e id front).Stands pid id peer front.flatten :=
    fun front => (stands_accept ha hw hnew hl).reads front
  intro o
  obtain ⟨lines, rest, bad, ending, hcut, hans, hends, hevents, hgone⟩ :=
    (hstands reads).close last
  refine ⟨lines, rest, bad, ending, hcut, hans, hends, hevents,
    EchoServer.connection?_eq_none_iff.mp hgone, ?_⟩
  rintro front back rfl
  rw [List.flatten_append, List.append_assoc] at hcut
  cases hstands front with
  | @serving c hc _ _ _ hread hnone =>
    obtain ⟨whole, tail, hwhole, hfront, -⟩ := hread
    obtain ⟨more, rfl, -⟩ := hwhole.exists_append hcut
    rw [List.append_assoc] at hans
    exact ⟨whole, tail, none, hwhole, hfront, hfront.isPrefix hans,
      .inl ⟨rfl, EchoServer.mem_tasks_of_connection? hc, hnone⟩⟩
  | @failed whole tail l ending' n hc hwhole hfront hends' hevents' =>
    obtain ⟨more, rfl, -⟩ := hwhole.exists_append hcut
    rw [List.append_assoc] at hans
    obtain ⟨hsame, rfl⟩ := (hfront.append_of_bad _).unique hans
    obtain rfl := hends'.eq_of_bad hends
    exact ⟨whole, tail, some l, hwhole, hfront, hfront.isPrefix hans,
      .inr ⟨Option.some_ne_none l, rfl, EchoServer.connection?_eq_none_iff.mp hc,
        hevents'.trans hevents.symm, hsame⟩⟩

/-- A process with the number 7 takes a connection. The first read ends between a carriage return
and a newline, the second inside a character, and there is no newline at the end. -/
theorem echoes_stream_split :
    let e : EchoServer := { label := EchoServer.labelOf 7, waiting := [(0, "unix")] }
    let o := (afterReads e 0 [[104, 105, 13], [10, 195]]).close 0 [169]
    o.written = Utf8.encode "7: hi\n7: é\n" ∧ o.events = [.connectionClosed "unix" 2] := by
  intro e o
  obtain ⟨lines, rest, bad, ending, hcut, hans, hends, hevents, -⟩ :=
    echoes_stream (e := e) rfl (show e.waiting = [(0, "unix")] from rfl) List.not_mem_nil rfl
      [[104, 105, 13], [10, 195]] [169]
  have hlines : Cut [104, 105, 13, 10, 195, 169] [[104, 105, 13, 10]] [195, 169] :=
    .line (l := [104, 105, 13]) (by decide) (.rest (by decide))
  obtain ⟨rfl, rfl⟩ := Prod.mk.inj (hcut.cutLines_eq.symm.trans hlines.cutLines_eq)
  have hcrlf : Says [104, 105, 13, 10] "hi" := by
    rw [says_iff, Utf8.encode_eq_flatMap]
    rfl
  have hrest : Says [195, 169] "é" := by
    rw [says_iff, Utf8.encode_eq_flatMap]
    rfl
  obtain ⟨hwritten, rfl⟩ := hans.unique (.answer hcrlf (.answer hrest .done))
  cases hends
  refine ⟨?_, hevents⟩
  rw [hwritten, List.append_nil, ← Utf8.encode_append]
  rfl

end Attended

end Handoff
