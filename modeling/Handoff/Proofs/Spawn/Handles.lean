import Handoff.Proofs.Listener.Ownership
import Handoff.Proofs.Spawn.Replacement

/-!
# What a child inherits

A child gets every fd of its parent that survives the execution of a program, and the listener at
the agreed slot. What a process opens itself does not survive. A slot that it has inherited does: it
has survived once already, and taking it over does not change that. So a child gets the four agreed
fds and nothing else, unless its parent still holds an inherited slot with another number.

* `System.fds_of_spawned`: the fds of a child, from those of its parent.
* `Holder.Reaches`, `Holder.Settled`: what a process may do before, and what that keeps.
* `Holder.child_handles`: the fds of a child of such a process.
* `Holder.fifth_handle`: a child with one more.
-/

namespace Handoff

namespace System

variable {s : System} {address : String} {l : Listener} {child : Child}

/-- A `child` has the listener's file at the `listenerSlot` and whatever else is `kept?`. The
duplicate that the listener was exported by is not. -/
theorem fds_of_spawned (h : (s.spawnReplacement address l).result = .ok child) :
    ∃ p f, (s.spawnReplacement address l).state.others = p :: s.others ∧ p.pid = child.pid ∧
      s.fds.file? l.fd = some f ∧
      ∀ fd, p.fds.get? fd = if fd = listenerSlot then some ⟨f, false⟩ else s.fds.kept? fd := by
  unfold spawnReplacement at h ⊢
  split at h
  · cases h
  rename_i d handle s₁ hx
  obtain ⟨-, f, hf, hhandle, rfl, -⟩ := Listener.exportAs_eq_ok.mp hx
  simp only at h ⊢
  rcases ho : spawnExported _ address d handle with ⟨r, s', events⟩
  rw [ho] at h
  cases h
  obtain ⟨program, plan, p, -, hplan, hp, hpid, rfl⟩ := of_spawnExported ho
  obtain ⟨dir, -, rfl⟩ := SpawnPlan.ofProgram_eq_ok.mp hplan
  obtain ⟨t, ht, hfds, -, -, hppid, -⟩ := SpawnPlan.of_child hp
  obtain ⟨f', hf', rfl⟩ := installHandles_eq_ok.mp ht
  rw [fds_withFds, FdTable.file?_insert_self] at hf'
  cases hf'
  refine ⟨p, f, rfl, hppid.trans hpid.symm, hf, fun fd => ?_⟩
  rw [hfds, fds_withFds, FdTable.get?_afterExec]
  by_cases hslot : fd = listenerSlot
  · rw [if_pos hslot, hslot]
    simp [FdTable.kept?]
  -- The duplicate closes on execution, and the number that it has was free in `s`.
  · rw [if_neg hslot, FdTable.kept?_insert_of_ne _ _ hslot]
    by_cases hfd : fd = handle
    · have hfree : s.fds.get? handle = none := hhandle ▸ FdTable.get?_lowestFree _ _
      simp [hfd, FdTable.kept?, hfree]
    · exact FdTable.kept?_insert_of_ne _ _ hfd

/-- A process that was just started: its standard streams survive the execution of a program, and of
all other fds at most `slot`, which it has inherited. -/
structure StartedWith (s : System) (slot : Int) : Prop where
  /-- The standard streams are open and survive. -/
  streams : ∀ fd, 0 ≤ fd → fd ≤ lastStandardFd → ∃ f, s.fds.get? fd = some ⟨f, false⟩
  /-- Nothing else survives. -/
  only : ∀ fd e, s.fds.kept? fd = some e → 0 ≤ fd ∧ fd ≤ lastStandardFd ∨ fd = slot

end System

namespace FdTable.Change

variable {t t' : FdTable} {owned owned' : List Int} {opened : Option Int}

/-- Nothing new survives the execution of a program (`kept?`). -/
theorem kept?_of_kept? (hc : t.Change owned opened t' owned') {fd : Int} {e : FdEntry}
    (hk : t'.kept? fd = some e) : t.kept? fd = some e := by
  obtain ⟨he, hclose⟩ := kept?_eq_some.mp hk
  refine kept?_eq_some.mpr ⟨?_, hclose⟩
  cases hc with
  | @opens new f =>
    by_cases hfd : fd = new
    · rw [hfd, get?_insert_self] at he
      cases he
      cases hclose
    · rwa [get?_insert_of_ne _ _ hfd] at he
  | @closes before after old hsplit =>
    have hfd : fd ≠ old := by
      rintro rfl
      simp at he
    rwa [get?_erase_of_ne _ hfd] at he
  | stays => exact he

end FdTable.Change

namespace Holder

variable {h g : Holder} {s : System} {slot : Int}

/-- What a process may have done since it was started. Here an acquisition may be given any text, so
several slots may be taken over. -/
inductive Reaches (start : Holder) : Holder → Prop
  | start : Reaches start start
  | use {opened : Option Int} {h g : Holder} : Reaches start h → h.Use opened g → Reaches start g
  | acquire {h : Holder} (address : String) (metadata : Option String) : Reaches start h →
      Reaches start (h.acquired (h.system.acquireFrom address metadata))

/-- The streams are as they were in `s` and owned by nobody, and nothing new survives. -/
structure Settled (s : System) (h : Holder) : Prop where
  /-- The standard streams are what they were. -/
  streams : ∀ fd, 0 ≤ fd → fd ≤ lastStandardFd → h.system.fds.get? fd = s.fds.get? fd
  /-- What is owned is no standard stream. -/
  above : ∀ fd ∈ h.fds, lastStandardFd < fd
  /-- What survives has done so from the start. -/
  kept : ∀ fd e, h.system.fds.kept? fd = some e → s.fds.kept? fd = some e

theorem settled_start (s : System) : Settled s ⟨s, []⟩ :=
  ⟨fun _ _ _ => rfl, by simp [fds], fun _ _ h => h⟩

/-- A free `fd` is above the standard streams. -/
theorem Settled.lt_of_free (hs : s.StartedWith slot) (hi : Settled s h) {fd : Int} (hfd : 0 ≤ fd)
    (hfree : h.system.fds.get? fd = none) : lastStandardFd < fd := by
  by_cases hle : fd ≤ lastStandardFd
  · obtain ⟨f, hf⟩ := hs.streams fd hfd hle
    rw [hi.streams fd hfd hle, hf] at hfree
    cases hfree
  · exact Int.not_le.mp hle

theorem Settled.change {opened : Option Int} (hs : s.StartedWith slot) (hi : Settled s h)
    (hc : h.system.fds.Change h.fds opened g.system.fds g.fds) : Settled s g := by
  refine ⟨fun fd hfd hle => ?_, fun fd hmem => ?_, fun fd e he => ?_⟩
  · obtain ⟨f, hf⟩ := hs.streams fd hfd hle
    rw [← hi.streams fd hfd hle] at hf ⊢
    apply hc.get?_of_not_mem
    · intro hmem
      have := hi.above fd hmem
      omega
    · rw [FdTable.isOpen, hf]
      rfl
  · rcases hc.mem_or_opened hmem with hmem | hmem
    · exact hi.above fd hmem
    · obtain ⟨hfd, hfree⟩ := hc.free fd hmem
      exact hi.lt_of_free hs hfd hfree
  · exact hi.kept fd e (hc.kept?_of_kept? he)

/-- An acquisition opens a free number, or takes over a slot above the streams and leaves it as it
is. -/
theorem Settled.acquired (hs : s.StartedWith slot) (hi : Settled s h) (address : String)
    (metadata : Option String) :
    Settled s (h.acquired (h.system.acquireFrom address metadata)) := by
  cases hr : (h.system.acquireFrom address metadata).result with
  | error e => rwa [acquired_of_error hr (System.acquireFrom_error hr)]
  | ok l =>
    rw [acquired_of_ok hr]
    rcases System.acquireFrom_ok hr with ⟨text, d, -, hd, hfd, -, hsame⟩ | ⟨hfd, ht⟩
    · rw [hsame]
      refine ⟨hi.streams, fun fd hmem => ?_, hi.kept⟩
      have hslot : lastStandardFd < d.slot := (Descriptor.spells_of_decode hd).2
      rcases List.mem_cons.mp hmem with rfl | hmem
      · show lastStandardFd < l.fd
        rw [hfd]
        exact hslot
      · exact hi.above fd hmem
    · have hc : h.system.fds.Change h.fds (some l.fd)
          (h.system.acquireFrom address metadata).state.fds (l.fd :: h.fds) := by
        rw [ht]
        exact .opens_lowestFree (by decide) hfd
      exact hi.change hs hc

theorem Reaches.settled (hs : s.StartedWith slot) (hr : Reaches ⟨s, []⟩ h) : Settled s h := by
  induction hr with
  | start => exact settled_start s
  | use _ hu ih => exact ih.change hs hu.change.1
  | acquire address metadata _ ih => exact ih.acquired hs address metadata

/-- An `fd` of the standard streams survives where it was. -/
theorem Settled.stream (hs : s.StartedWith slot) (hi : Settled s h) {fd : Int} (hfd : 0 ≤ fd)
    (hle : fd ≤ lastStandardFd) :
    h.system.fds.kept? fd = s.fds.get? fd ∧ (h.system.fds.kept? fd).isSome := by
  obtain ⟨f, hf⟩ := hs.streams fd hfd hle
  have hkept : h.system.fds.kept? fd = some ⟨f, false⟩ :=
    FdTable.kept?_eq_some.mpr ⟨(hi.streams fd hfd hle).trans hf, rfl⟩
  rw [hkept, hf]
  exact ⟨rfl, rfl⟩

/-- What survives are the standard streams, and the `slot` that was inherited as long as it does. -/
theorem Settled.isSome_kept?_iff (hs : s.StartedWith slot) (hi : Settled s h) (fd : Int) :
    (h.system.fds.kept? fd).isSome ↔
      0 ≤ fd ∧ fd ≤ lastStandardFd ∨ fd = slot ∧ (h.system.fds.kept? slot).isSome := by
  constructor
  · intro hk
    obtain ⟨e, he⟩ := Option.isSome_iff_exists.mp hk
    rcases hs.only fd e (hi.kept fd e he) with hstream | hslot
    · exact .inl hstream
    · exact .inr ⟨hslot, hslot ▸ hk⟩
  · rintro (⟨hfd, hle⟩ | ⟨rfl, hk⟩)
    · exact (hi.stream hs hfd hle).2
    · exact hk

/-- **Handles.** A child has the four agreed fds: the standard streams of its parent and the
listener's file. It has one more exactly if the `slot` that its parent has inherited still survives
there and has another number. -/
theorem child_handles {address : String} {l : Listener} {child : Child} (hs : s.StartedWith slot)
    (hr : Reaches ⟨s, []⟩ h)
    (hok : (h.system.spawnReplacement address l).result = .ok child) :
    ∃ p f, (h.system.spawnReplacement address l).state.others = p :: h.system.others ∧
      p.pid = child.pid ∧ h.system.fds.file? l.fd = some f ∧
      p.fds.get? listenerSlot = some ⟨f, false⟩ ∧
      (∀ fd, 0 ≤ fd → fd ≤ lastStandardFd →
        p.fds.get? fd = h.system.fds.get? fd ∧ p.fds.get? fd = s.fds.get? fd) ∧
      (∀ fd, p.fds.isOpen fd = true ↔
        0 ≤ fd ∧ fd ≤ listenerSlot ∨ fd = slot ∧ (h.system.fds.kept? slot).isSome) := by
  have hi := hr.settled hs
  obtain ⟨p, f, hothers, hpid, hf, hget⟩ := System.fds_of_spawned hok
  have hlast : lastStandardFd + 1 = listenerSlot := rfl
  refine ⟨p, f, hothers, hpid, hf, by rw [hget, if_pos rfl], fun fd hfd hle => ?_, fun fd => ?_⟩
  · have hne : fd ≠ listenerSlot := by omega
    rw [hget, if_neg hne, (hi.stream hs hfd hle).1]
    exact ⟨(hi.streams fd hfd hle).symm, rfl⟩
  · rw [FdTable.isOpen, hget]
    by_cases hslot : fd = listenerSlot
    · rw [if_pos hslot, hslot]
      exact iff_of_true rfl (.inl ⟨by decide, Int.le_refl _⟩)
    · have hbounds : 0 ≤ fd ∧ fd ≤ lastStandardFd ↔ 0 ≤ fd ∧ fd ≤ listenerSlot := by omega
      rw [if_neg hslot, hi.isSome_kept?_iff hs, hbounds]

/-- A process of the program `/app` that has inherited a Unix socket at slot 5. -/
def inheriting : System :=
  { System.idle.withFds (System.idle.fds.insert 5 ⟨.socket 0, false⟩) with
    sockets := [⟨.unix, .stream, true, .path "/s", 0⟩] }

theorem startedWith_inheriting : inheriting.StartedWith 5 := by
  refine ⟨fun fd hfd hle => ?_, fun fd e he => ?_⟩
  · have hcases : fd = 0 ∨ fd = 1 ∨ fd = 2 := by
      simp only [lastStandardFd] at hle
      omega
    rcases hcases with rfl | rfl | rfl <;> exact ⟨_, rfl⟩
  · have hall : ∀ x ∈ inheriting.fds.entries,
        0 ≤ x.1 ∧ x.1 ≤ lastStandardFd ∨ x.1 = 5 := by decide
    exact hall _ (Table.get?_eq_some_iff.mp (FdTable.kept?_eq_some.mp he).1)

/-- `inheriting` takes the slot over and launches a child for it. The child has a second handle on
the socket. -/
theorem fifth_handle :
    ∃ h l child p, Reaches ⟨inheriting, []⟩ h ∧ h.owned = [.listener l] ∧
      (h.system.spawnReplacement "/s" l).result = .ok child ∧
      (h.system.spawnReplacement "/s" l).state.others = [p] ∧
      p.fds.file? listenerSlot = some (.socket 0) ∧ p.fds.file? 5 = some (.socket 0) := by
  let d : Descriptor := ⟨"/s", 5, ""⟩
  have hd : Descriptor.decode d.encode = .ok d := by
    rw [Descriptor.decode_encode_eq _ (by decide) (by decide)]
    rfl
  have husable : inheriting.Usable (.parse "/s") d.slot := ⟨0, rfl, _, rfl, rfl, rfl, rfl⟩
  have hkind : ListenerKind.ofAddress (.parse "/s") = .unix := rfl
  have hr : Reaches ⟨inheriting, []⟩ ⟨inheriting, [.listener ⟨.unix, 5⟩]⟩ := by
    have h := (@Reaches.start ⟨inheriting, []⟩).acquire "/s" (some d.encode)
    rwa [System.acquireFrom_usable hd rfl husable, acquired_of_ok rfl, hkind] at h
  have hok : (inheriting.spawnReplacement "/s" ⟨.unix, 5⟩).result = .ok ⟨2, true, none⟩ := rfl
  obtain ⟨p, f, hothers, -, hf, hget⟩ := System.fds_of_spawned hok
  cases hf
  refine ⟨_, _, _, p, hr, rfl, hok, hothers, ?_, ?_⟩
  · rw [FdTable.file?, hget, if_pos rfl]
    rfl
  · rw [FdTable.file?, hget, if_neg (by decide)]
    rfl

end Holder

end Handoff
