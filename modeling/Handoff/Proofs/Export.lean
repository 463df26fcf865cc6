import Handoff.Export
import Handoff.Proofs.Fd.Table

/-!
# What an export does

* `Listener.exportAs_eq_ok`: an export adds one fd, a duplicate of the listener's at a free number
  above all slots of a child, and gives the descriptor for the agreed slot.
* `System.drop_inserted`: letting go of the duplicate gives the old system back.
* `Listener.state_close`: a closed listener is gone, whatever is reported of the closing.
-/

namespace Handoff

theorem System.fds_withFds (s : System) (t : FdTable) : (s.withFds t).fds = t := rfl

namespace Listener

variable {l : Listener} {s s' : System} {address : String} {d : Descriptor} {handle : Int}

/-- **Export.** Only listeners of streams whose fd is open are exported. The `handle` is the lowest
free fd from `exportFloor` up and refers to the same file. -/
theorem exportAs_eq_ok :
    l.exportAs s address = (.ok (d, handle), s') ↔
      l.kind.isStream = true ∧ ∃ f, s.fds.file? l.fd = some f ∧
        handle = s.fds.lowestFree exportFloor ∧ s' = s.withFds (s.fds.insert handle ⟨f, true⟩) ∧
        d = .ofListener address (l.debugName s') := by
  unfold exportAs streamFd?
  cases hk : l.kind.isStream with
  | false => simp
  | true =>
    cases hd : s.fds.dupAbove l.fd exportFloor with
    | error e =>
      have hf : s.fds.file? l.fd = none := by
        unfold FdTable.dupAbove at hd
        split at hd
        · assumption
        · cases hd
      simp [hd, hf]
    | ok x =>
      obtain ⟨h, t⟩ := x
      obtain ⟨f, hf, rfl, rfl⟩ := FdTable.dupAbove_eq_ok.mp hd
      simp only [hd, hf, if_true, Prod.mk.injEq, Except.ok.injEq, Option.some.injEq, true_and,
        exists_eq_left']
      constructor
      · rintro ⟨⟨rfl, rfl⟩, rfl⟩; exact ⟨rfl, rfl, rfl⟩
      · rintro ⟨rfl, rfl, rfl⟩; exact ⟨⟨rfl, rfl⟩, rfl⟩

/-- An `exportAs` that fails leaves the system as it is. -/
theorem exportAs_eq_error {e : ExportError} (h : l.exportAs s address = (.error e, s')) :
    s' = s := by
  unfold exportAs at h
  split at h
  · cases h; rfl
  · split at h
    · cases h; rfl
    · cases h

end Listener

namespace System

variable {s : System} {t : FdTable}

/-- Letting go of a freshly opened `fd` gives the old system back. -/
theorem drop_inserted (s : System) {fd : Int} (e : FdEntry) (h : s.fds.get? fd = none) :
    (s.withFds (s.fds.insert fd e)).drop fd = s := by
  rw [drop, fds_withFds, FdTable.erase_insert _ _ h]
  rfl

end System

/-- Whatever `close` reports, the listener is given up as with `drop`. -/
theorem Listener.state_close (l : Listener) (s : System) : (l.close s).2 = l.drop s := by
  unfold close System.close FdTable.close
  by_cases ho : s.fds.isOpen l.fd = true
  · rw [if_pos ho]
    rfl
  -- A closing that fails found the fd closed, and dropping that changes nothing either.
  · rw [if_neg ho]
    have hfree : s.fds.get? l.fd = none := by
      simpa [FdTable.isOpen] using ho
    unfold drop System.drop
    rw [FdTable.erase_of_free hfree]
    rfl

end Handoff
