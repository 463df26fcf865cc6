import Handoff.Proofs.Acquire
import Handoff.Proofs.Spawn.Failure

/-!
# Exports that are held at the same time

An `Exporter` is a process with the duplicates that its exports gave it and that it has not dropped
yet. Whatever it exports and drops, and in whatever order, these duplicates are all that its fd
table has beyond the one it began with.

* `Listener.Exported`, `Listener.exported_of_exportable`: what an export does that succeeds.
* `Holds.perform`, `holds_run`: the fd table is the old one behind the duplicates that are held.
* `Holds.drop_all`: dropped in any order, they leave the system as it was.
* `exports_restored`: one export adds one duplicate or nothing, and each drop takes its own back.
-/

namespace Handoff

namespace Listener

variable {l : Listener} {s : System}

/-- A socket keeps its name when another `fd` is opened. -/
theorem debugName_insert (l : Listener) {fd : Int} (e : FdEntry) (h : l.fd ≠ fd) :
    l.debugName (s.withFds (s.fds.insert fd e)) = l.debugName s := by
  have hsock : (s.withFds (s.fds.insert fd e)).socketAt? l.fd = s.socketAt? l.fd := by
    rw [System.socketAt?, System.fds_withFds, FdTable.file?_insert_of_ne _ _ h]
    rfl
  rw [debugName, localName, hsock]
  rfl

/-- What a successful export leaves behind: one more fd, `handle`. -/
structure Exported (l : Listener) (address : String) (s : System) (d : Descriptor) (handle : Int)
    (s' : System) : Prop where
  /-- The handle is above the floor. -/
  floor : exportFloor ≤ handle
  /-- It is none of the slots of a child. -/
  clear : ∀ slot, 0 ≤ slot → slot ≤ listenerSlot → handle ≠ slot
  free : s.fds.get? handle = none
  /-- It is the one new entry, closes on execution and refers to the file of the listener. -/
  entries : ∃ f, s.fds.file? l.fd = some f ∧
    s'.fds.entries = (handle, ⟨f, true⟩) :: s.fds.entries
  /-- Nothing but the fds has changed. -/
  rest : s' = s.withFds s'.fds
  /-- The descriptor names the address, the agreed slot and the listener. -/
  descriptor : d = ⟨address, listenerSlot, l.debugName s⟩
  /-- Dropping the handle gives the old system back. -/
  drop : s'.drop handle = s

/-- A listener that is `Exportable`, of streams and with an open fd, is exported. -/
theorem exported_of_exportable (h : l.Exportable s) (address : String) :
    ∃ d handle s', l.exportAs s address = (.ok (d, handle), s') ∧
      l.Exported address s d handle s' := by
  obtain ⟨hk, f, hf⟩ := h
  have hfree := s.fds.get?_lowestFree exportFloor
  have hfloor := s.fds.le_lowestFree exportFloor
  have hne : l.fd ≠ s.fds.lowestFree exportFloor := FdTable.ne_lowestFree hf _
  refine ⟨_, _, _, exportAs_eq_ok.mpr ⟨hk, f, hf, rfl, rfl, rfl⟩, ?_⟩
  refine ⟨hfloor, fun slot _ hslot => ?_, hfree, ⟨f, hf, ?_⟩, rfl, ?_,
    System.drop_inserted s _ hfree⟩
  · have hbelow : listenerSlot < exportFloor := by decide
    omega
  · rw [System.fds_withFds]
    exact Table.entries_insert_of_get?_eq_none _ hfree
  · rw [debugName_insert l _ hne]
    rfl

end Listener

/-- A process and the duplicates that it holds. -/
structure Exporter where
  system : System
  /-- The duplicates that exports gave out and that are not dropped yet, the newest first. -/
  held : List Int

namespace Exporter

/-- What an exporter is asked to do. -/
inductive Request where
  /-- It exports a listener under an `address` and holds the duplicate. -/
  | hold (l : Listener) (address : String)
  | drop (handle : Int)
  deriving DecidableEq, Repr

/-- Does what is asked. Nothing is held of an export that fails, and what is not held is not
dropped. -/
def perform (g : Exporter) : Request → Exporter
  | .hold l address =>
    match l.exportAs g.system address with
    | (.ok (_, handle), s') => ⟨s', handle :: g.held⟩
    | (.error _, s') => ⟨s', g.held⟩
  | .drop handle =>
    if handle ∈ g.held then ⟨g.system.drop handle, g.held.erase handle⟩ else g

/-- An exporter that began in `s` with nothing held. -/
def run (s : System) (rs : List Request) : Exporter := rs.foldl perform ⟨s, []⟩

variable {s : System} {g : Exporter} {dups : List (Int × FdEntry)}

/-- All that `g` has beyond the system `s` it began with: the entries `dups` of the duplicates that
it holds. -/
structure Holds (s : System) (dups : List (Int × FdEntry)) (g : Exporter) : Prop where
  /-- Nothing but the fds has changed. -/
  rest : g.system = s.withFds g.system.fds
  /-- The new entries stand in front of the old ones. -/
  entries : g.system.fds.entries = dups ++ s.fds.entries
  held : g.held = dups.map Prod.fst
  /-- All of them are above the floor and close on execution. -/
  above : ∀ x ∈ dups, exportFloor ≤ x.1 ∧ x.2.closeOnExec = true

/-- A table holds each number once, so the duplicates `dups` are at numbers of their own. -/
theorem Holds.nodup_append (h : Holds s dups g) :
    (dups.map Prod.fst ++ s.fds.entries.map Prod.fst).Nodup := by
  have hd := g.system.fds.distinct
  rwa [h.entries, List.map_append] at hd

theorem Holds.nodup (h : Holds s dups g) : g.held.Nodup := by
  rw [h.held]
  exact (List.nodup_append.mp h.nodup_append).1

/-- The number of a duplicate was free in `s`, at the start. -/
theorem Holds.free (h : Holds s dups g) {x : Int × FdEntry} (hx : x ∈ dups) :
    s.fds.get? x.1 = none :=
  Table.get?_eq_none_iff.mpr fun _ hy heq =>
    (List.nodup_append.mp h.nodup_append).2.2 _ (List.mem_map_of_mem hx) _
      (List.mem_map_of_mem hy) heq.symm

theorem Holds.get?_of_mem (h : Holds s dups g) {x : Int × FdEntry} (hx : x ∈ dups) :
    g.system.fds.get? x.1 = some x.2 := by
  rw [Table.get?_eq_some_iff, h.entries]
  exact List.mem_append_left _ hx

/-- A number that is not in `g.held` is what it was in `s`. -/
theorem Holds.get?_of_not_mem (h : Holds s dups g) {fd : Int} (hfd : fd ∉ g.held) :
    g.system.fds.get? fd = s.fds.get? fd := by
  apply Option.ext
  intro e
  have hno : (fd, e) ∉ dups := fun hmem => hfd (h.held ▸ List.mem_map_of_mem hmem)
  rw [Table.get?_eq_some_iff, Table.get?_eq_some_iff, h.entries, List.mem_append]
  exact or_iff_right hno

/-- **Step.** After one more export, `Holds` with one more duplicate or with the same ones. -/
theorem Holds.hold (h : Holds s dups g) (l : Listener) (address : String) :
    ∃ dups', Holds s dups' (g.perform (.hold l address)) := by
  cases hk : l.kind.isStream with
  | false => exact ⟨dups, by rwa [perform, System.exportAs_of_unsupported hk]⟩
  | true =>
    cases hf : g.system.fds.file? l.fd with
    | none => exact ⟨dups, by rwa [perform, System.exportAs_of_not_open hk hf]⟩
    | some f =>
      obtain ⟨d, handle, s', hexport, hadded⟩ :=
        Listener.exported_of_exportable ⟨hk, f, hf⟩ address
      obtain ⟨f, -, hentries⟩ := hadded.entries
      refine ⟨(handle, ⟨f, true⟩) :: dups, ?_⟩
      simp only [perform, hexport]
      constructor
      · show s' = s.withFds s'.fds
        rw [hadded.rest, h.rest]
        rfl
      · show s'.fds.entries = _
        rw [hentries, h.entries, List.cons_append]
      · rw [h.held]
        rfl
      · intro x hx
        rcases List.mem_cons.mp hx with rfl | hx
        · exact ⟨hadded.floor, rfl⟩
        · exact h.above x hx

/-- **Step.** After a drop of `handle`, `Holds` without it. No other entry has its number. -/
theorem Holds.drop (h : Holds s dups g) {handle : Int} (hmem : handle ∈ g.held) :
    Holds s (dups.filter (·.1 != handle)) (g.perform (.drop handle)) := by
  obtain ⟨x, hx, rfl⟩ := List.mem_map.mp (h.held ▸ hmem)
  have hold : s.fds.entries.filter (·.1 != x.1) = s.fds.entries :=
    congrArg Table.entries (Table.erase_of_get?_eq_none (h.free hx))
  simp only [perform, if_pos hmem]
  constructor
  · show g.system.drop x.1 = s.withFds (g.system.drop x.1).fds
    rw [System.drop, h.rest]
    rfl
  · show g.system.fds.entries.filter (·.1 != x.1) = _
    rw [h.entries, List.filter_append, hold]
  · rw [h.nodup.erase_eq_filter, h.held, List.filter_map]
    rfl
  · exact fun y hy => h.above y (List.mem_filter.mp hy).1

theorem Holds.perform (h : Holds s dups g) (r : Request) :
    ∃ dups', Holds s dups' (g.perform r) := by
  cases r with
  | hold l address => exact h.hold l address
  | drop handle =>
    by_cases hmem : handle ∈ g.held
    · exact ⟨_, h.drop hmem⟩
    · exact ⟨dups, by rwa [Exporter.perform, if_neg hmem]⟩

theorem holds_run (s : System) (rs : List Request) : ∃ dups, Holds s dups (run s rs) := by
  suffices ∀ g dups, Holds s dups g → ∃ dups', Holds s dups' (rs.foldl Exporter.perform g) from
    this ⟨s, []⟩ [] ⟨rfl, rfl, rfl, nofun⟩
  induction rs with
  | nil => exact fun g dups h => ⟨dups, h⟩
  | cons r rs ih =>
    intro g dups h
    obtain ⟨dups', h'⟩ := h.perform r
    exact ih _ _ h'

/-- With nothing held, `g.system` is `s` again. -/
theorem Holds.system_eq (h : Holds s dups g) (hnil : g.held = []) : g.system = s := by
  have hdups : dups = [] := List.map_eq_nil_iff.mp (h.held.symm.trans hnil)
  have hfds : g.system.fds = s.fds := by
    apply FdTable.ext
    rw [h.entries, hdups, List.nil_append]
  rw [h.rest, hfds]
  rfl

/-- **Any order.** All the duplicates are dropped, in any `order`, and the system is `s` again. -/
theorem Holds.drop_all {order : List Int} (h : Holds s dups g) (hp : order.Perm g.held) :
    order.foldl System.drop g.system = s := by
  induction order generalizing g dups with
  | nil => exact h.system_eq (List.nil_perm.mp hp)
  | cons handle rest ih =>
    obtain ⟨hmem, hrest⟩ := List.cons_perm_iff_perm_erase.mp hp
    have hdrop := h.drop hmem
    have hnext : g.perform (.drop handle) = ⟨g.system.drop handle, g.held.erase handle⟩ :=
      if_pos hmem
    rw [hnext] at hdrop
    exact ih hdrop hrest

/-- What holds between the system `s` an exporter began with and what it has made of it. -/
structure Restorable (s : System) (g : Exporter) : Prop where
  nodup : g.held.Nodup
  /-- Each is above the floor, was free at the start, and is open now and closes on execution. -/
  fresh : ∀ handle ∈ g.held, exportFloor ≤ handle ∧ s.fds.get? handle = none ∧
    ∃ f, g.system.fds.get? handle = some ⟨f, true⟩
  /-- All other fds are what they were at the start. -/
  others : ∀ fd, fd ∉ g.held → g.system.fds.get? fd = s.fds.get? fd
  /-- Nothing but the fds has changed. -/
  rest : g.system = s.withFds g.system.fds
  /-- A drop closes the duplicate that is dropped and leaves all other fds alone. -/
  drop : ∀ handle ∈ g.held, (g.perform (.drop handle)).held = g.held.erase handle ∧
    ∀ fd, (g.perform (.drop handle)).system.fds.get? fd =
      if fd = handle then none else g.system.fds.get? fd
  /-- Every listener that was open at the start is open, with its file. -/
  listeners : ∀ (l : Listener) f, s.fds.file? l.fd = some f → g.system.fds.file? l.fd = some f
  /-- Its socket lives. -/
  sockets : ∀ (l : Listener) id, s.fds.file? l.fd = some (.socket id) → g.system.isLive id = true
  /-- Once all are dropped, in any order, the system is as it was. -/
  restored : ∀ order : List Int, order.Perm g.held → order.foldl System.drop g.system = s

theorem Holds.restorable (h : Holds s dups g) : Restorable s g := by
  have hlisteners : ∀ (l : Listener) f,
      s.fds.file? l.fd = some f → g.system.fds.file? l.fd = some f := by
    intro l f hf
    have hnot : l.fd ∉ g.held := by
      intro hmem
      obtain ⟨x, hx, heq⟩ := List.mem_map.mp (h.held ▸ hmem)
      have hfree := h.free hx
      rw [heq] at hfree
      simp [FdTable.file?, hfree] at hf
    rwa [FdTable.file?, h.get?_of_not_mem hnot]
  refine ⟨h.nodup, fun handle hmem => ?_, fun fd => h.get?_of_not_mem, h.rest,
    fun handle hmem => ?_, hlisteners, fun l id hf => ?_, fun order hp => h.drop_all hp⟩
  · obtain ⟨x, hx, rfl⟩ := List.mem_map.mp (h.held ▸ hmem)
    obtain ⟨hfloor, hclose⟩ := h.above x hx
    refine ⟨hfloor, h.free hx, x.2.file, ?_⟩
    rw [h.get?_of_mem hx, ← hclose]
  · rw [Exporter.perform, if_pos hmem]
    refine ⟨rfl, fun fd => ?_⟩
    by_cases hfd : fd = handle
    · rw [if_pos hfd, hfd]
      exact FdTable.get?_erase_self _ _
    · rw [if_neg hfd]
      exact FdTable.get?_erase_of_ne _ hfd
  · have hrefers := FdTable.refersTo_of_file? (hlisteners l _ hf)
    rw [System.isLive, List.any_cons]
    exact Bool.or_eq_true_iff.mpr (.inl hrefers)

/-- **Exports.** An export fails for a listener of datagrams and for one whose fd is closed, and
then changes nothing. Otherwise it is `Exported`: it opens one duplicate, which a drop takes back.
Whatever a process exports and drops (`rs`), every duplicate is at a number of its own, every
listener stays open, and in any order the drops of those that are left give the system back that it
began with. -/
theorem exports_restored (s : System) :
    (∀ (l : Listener) address, l.kind = .udp →
      l.exportAs s address = (.error (.unsupported l.kind), s)) ∧
    (∀ (l : Listener) address, l.kind ≠ .udp → s.fds.isOpen l.fd = false →
      l.exportAs s address = (.error (.duplicate .badDescriptor), s)) ∧
    (∀ (l : Listener) address, l.kind ≠ .udp → s.fds.isOpen l.fd = true →
      ∃ d handle s', l.exportAs s address = (.ok (d, handle), s') ∧
        l.Exported address s d handle s') ∧
    ∀ rs, Restorable s (run s rs) := by
  have hstream : ∀ l : Listener, l.kind ≠ .udp → l.kind.isStream = true := by
    rintro ⟨kind, fd⟩ hk
    cases kind with
    | tcp => rfl
    | unix => rfl
    | udp => exact (hk rfl).elim
  refine ⟨fun l address hk => ?_, fun l address hk hopen => ?_, fun l address hk hopen => ?_,
    fun rs => ?_⟩
  · exact System.exportAs_of_unsupported (by rw [hk]; rfl) address
  · refine System.exportAs_of_not_open (hstream l hk) ?_ address
    simpa [FdTable.isOpen, FdTable.file?] using hopen
  · exact Listener.exported_of_exportable ⟨hstream l hk, FdTable.isOpen_iff.mp hopen⟩ address
  · obtain ⟨dups, h⟩ := holds_run s rs
    exact h.restorable

/-- A process with a TCP socket at fd 3 and a Unix socket at fd 4. -/
def twoSockets : System :=
  let one := System.holdingLoopback 3 true
  { one.withFds (one.fds.insert 4 ⟨.socket 1, true⟩) with
    sockets := one.sockets ++ [⟨.unix, .stream, true, .path "/s", 0⟩] }

/-- `twoSockets` exports both and tries two that cannot be exported. The older duplicate is dropped,
and its number is given out again. -/
def reusing : Exporter :=
  run twoSockets [.hold ⟨.tcp, 3⟩ "127.0.0.1:9000", .hold ⟨.unix, 4⟩ "/s", .hold ⟨.unix, 5⟩ "/t",
    .hold ⟨.udp, 3⟩ "127.0.0.1:9001", .drop 100, .hold ⟨.unix, 4⟩ "/s"]

/-- The two duplicates that are left, both of the Unix socket, are dropped in the order in which
they were made. -/
theorem exports_restored_reused :
    Listener.exportAs ⟨.udp, 3⟩ twoSockets "127.0.0.1:9001" =
        (.error (.unsupported .udp), twoSockets) ∧
      Listener.exportAs ⟨.unix, 5⟩ twoSockets "/t" =
        (.error (.duplicate .badDescriptor), twoSockets) ∧
      (∃ d handle s', Listener.exportAs ⟨.unix, 4⟩ twoSockets "/s" = (.ok (d, handle), s') ∧
        Listener.Exported ⟨.unix, 4⟩ "/s" twoSockets d handle s') ∧
      reusing.held = [100, 101] ∧ [101, 100].foldl System.drop reusing.system = twoSockets ∧
      reusing.system.isLive 0 = true ∧ reusing.system.isLive 1 = true := by
  obtain ⟨hdatagram, hclosed, hopen, hruns⟩ := exports_restored twoSockets
  have hheld : reusing.held = [100, 101] := by decide
  have hperm : [101, 100].Perm reusing.held := by
    rw [hheld]
    exact .swap 100 101 []
  have h : Restorable twoSockets reusing := hruns _
  exact ⟨hdatagram _ _ rfl, hclosed ⟨.unix, 5⟩ _ nofun rfl, hopen ⟨.unix, 4⟩ _ nofun rfl, hheld,
    h.restored _ hperm, h.sockets ⟨.tcp, 3⟩ 0 rfl, h.sockets ⟨.unix, 4⟩ 1 rfl⟩

end Exporter

end Handoff
