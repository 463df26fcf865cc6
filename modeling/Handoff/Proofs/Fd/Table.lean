import Handoff.Fd.Table

/-!
# What the operations on fd tables do

An fd table is read through `get?` and `file?`. The lemmas tell what each operation does to them:

* `get?_lowestFree`, `le_lowestFree`: the number that a duplicate gets is free and at least the
  floor.
* `dupAbove_eq_ok`: a duplicate refers to the same file, and nothing else changes.
* `erase_insert`: opening a free number and closing it again gives the same table back.
* `kept?`, `get?_afterExec`: exactly what is kept survives the execution of a program.
* `HeldBy`: all the numbers at which a file is open.
-/

namespace Handoff

namespace FdTable

variable {t : FdTable} {fd k : Int} {e : FdEntry} {f : File}

theorem file?_eq_some : t.file? fd = some f ↔ ∃ e, t.get? fd = some e ∧ e.file = f := by
  simp [file?]

theorem isOpen_iff : t.isOpen fd = true ↔ ∃ f, t.file? fd = some f := by
  unfold isOpen file?
  cases t.get? fd <;> simp

@[simp] theorem file?_insert_self (t : FdTable) (fd : Int) (e : FdEntry) :
    (t.insert fd e).file? fd = some e.file := by
  simp [file?]

theorem file?_insert_of_ne (t : FdTable) (e : FdEntry) (h : k ≠ fd) :
    (t.insert fd e).file? k = t.file? k := by
  rw [file?, get?_insert_of_ne t e h, file?]

theorem file?_erase_of_ne (t : FdTable) (h : k ≠ fd) : (t.erase fd).file? k = t.file? k := by
  rw [file?, get?_erase_of_ne t h, file?]

@[simp] theorem isOpen_insert_self (t : FdTable) (fd : Int) (e : FdEntry) :
    (t.insert fd e).isOpen fd = true := by
  simp [isOpen]

theorem isOpen_insert (t : FdTable) (e : FdEntry) (h : t.isOpen k = true) :
    (t.insert fd e).isOpen k = true := by
  by_cases hk : k = fd
  · rw [hk, isOpen_insert_self]
  · rwa [isOpen, get?_insert_of_ne t e hk]

theorem isOpen_erase_of_ne (t : FdTable) (h : k ≠ fd) : (t.erase fd).isOpen k = t.isOpen k := by
  rw [isOpen, get?_erase_of_ne t h, isOpen]

theorem ne_of_isOpen (hfree : t.get? fd = none) (h : t.isOpen k = true) : k ≠ fd := by
  rintro rfl
  simp [isOpen, hfree] at h

theorem erase_of_free (h : t.get? fd = none) : t.erase fd = t :=
  congrArg FdTable.mk (Table.erase_of_get?_eq_none h)

/-- Opening a free number and closing it again gives `t` back. -/
theorem erase_insert (t : FdTable) (e : FdEntry) (h : t.get? fd = none) :
    (t.insert fd e).erase fd = t :=
  congrArg FdTable.mk (Table.erase_insert e h)

/-! ## The lowest free number -/

theorem mem_keys_of_isOpen (h : t.isOpen fd = true) : fd ∈ t.entries.map Prod.fst := by
  obtain ⟨e, he⟩ := Option.isSome_iff_exists.mp h
  exact List.mem_map.mpr ⟨(fd, e), Table.get?_eq_some_iff.mp he, rfl⟩

/-- There are more numbers to try than `entries`, so one of them is free. -/
theorem exists_free (t : FdTable) (floor : Int) :
    ∃ n ∈ List.range (t.entries.length + 1), t.isOpen (floor + (n : Nat)) = false := by
  apply Classical.byContradiction
  intro hno
  have hopen : ∀ n ∈ List.range (t.entries.length + 1), t.isOpen (floor + (n : Nat)) = true :=
    fun n hn => by simpa using fun hc => hno ⟨n, hn, hc⟩
  -- If all were open, the numbers tried would be among those of the entries, and there is one more
  -- of them.
  let tried := (List.range (t.entries.length + 1)).map fun n : Nat => floor + (n : Int)
  have hd : tried.Nodup :=
    List.Pairwise.map _ (fun a b hab => by omega) (List.nodup_range (n := t.entries.length + 1))
  have hs : tried ⊆ t.entries.map Prod.fst := by
    intro x hx
    obtain ⟨n, hn, rfl⟩ := List.mem_map.mp hx
    exact mem_keys_of_isOpen (hopen n hn)
  have hle := List.Nodup.length_le_of_subset hd hs
  simp only [tried, List.length_map, List.length_range] at hle
  omega

theorem lowestFree_eq (t : FdTable) (floor : Int) :
    ∃ n : Nat, t.lowestFree floor = floor + n ∧ t.isOpen (floor + n) = false := by
  obtain ⟨n, hn, hfree⟩ := exists_free t floor
  unfold lowestFree
  simp only
  split
  · rename_i m hm
    have := List.find?_some hm
    exact ⟨m, rfl, by simpa using this⟩
  · rename_i hm
    have := List.find?_eq_none.mp hm n hn
    simp [hfree] at this

theorem get?_lowestFree (t : FdTable) (floor : Int) : t.get? (t.lowestFree floor) = none := by
  obtain ⟨n, hn, hfree⟩ := lowestFree_eq t floor
  rw [hn]
  simpa [isOpen] using hfree

theorem le_lowestFree (t : FdTable) (floor : Int) : floor ≤ t.lowestFree floor := by
  obtain ⟨n, hn, -⟩ := lowestFree_eq t floor
  omega

theorem ne_lowestFree (h : t.file? fd = some f) (floor : Int) : fd ≠ t.lowestFree floor := by
  rintro rfl
  simp [file?, get?_lowestFree] at h

/-! ## Duplicates -/

/-- A duplicate gets the lowest free number from `floor` up, refers to the same file and closes on
execution. -/
theorem dupAbove_eq_ok {floor new : Int} {t' : FdTable} :
    t.dupAbove fd floor = .ok (new, t') ↔
      ∃ f, t.file? fd = some f ∧ new = t.lowestFree floor ∧ t' = t.insert new ⟨f, true⟩ := by
  unfold dupAbove
  split
  · rename_i h; simp [h]
  · rename_i f h
    simp only [h, Except.ok.injEq, Prod.mk.injEq, Option.some.injEq, exists_eq_left']
    constructor
    · rintro ⟨rfl, rfl⟩; exact ⟨rfl, rfl⟩
    · rintro ⟨rfl, rfl⟩; exact ⟨rfl, rfl⟩

/-- A number put onto `target` refers to the same file there, and survives an execution. -/
theorem dupOnto_eq_ok {target : Int} {t' : FdTable} :
    t.dupOnto fd target = .ok t' ↔
      ∃ f, t.file? fd = some f ∧ t' = t.insert target ⟨f, false⟩ := by
  unfold dupOnto
  split
  · rename_i h; simp [h]
  · rename_i f h; simp [h, eq_comm]

/-! ## The execution of a program -/

/-- The entry of `fd`, if it survives the execution of a program. -/
def kept? (t : FdTable) (fd : Int) : Option FdEntry := (t.get? fd).filter (!·.closeOnExec)

theorem kept?_eq_some : t.kept? fd = some e ↔ t.get? fd = some e ∧ e.closeOnExec = false := by
  simp [kept?]

theorem kept?_insert_of_ne (t : FdTable) (e : FdEntry) (h : k ≠ fd) :
    (t.insert fd e).kept? k = t.kept? k := by
  rw [kept?, get?_insert_of_ne t e h, kept?]

/-- Exactly what is `kept?` is left when a program is executed. -/
theorem get?_afterExec (t : FdTable) (fd : Int) : t.afterExec.get? fd = t.kept? fd :=
  t.toTable.get?_keep _ fd

theorem refersTo_of_file? (h : t.file? fd = some f) : t.refersTo f = true := by
  obtain ⟨e, he, rfl⟩ := file?_eq_some.mp h
  exact List.any_eq_true.mpr ⟨(fd, e), Table.get?_eq_some_iff.mp he, by simp⟩

/-! ## All fds of one file -/

/-- `f` is open at the numbers `fds` and at no others. -/
structure HeldBy (t : FdTable) (f : File) (fds : List Int) : Prop where
  file?_iff : ∀ fd, t.file? fd = some f ↔ fd ∈ fds
  nodup : fds.Nodup

/-- A file to which nothing refers (`refersTo`) is open nowhere. -/
theorem heldBy_nil (h : t.refersTo f = false) : t.HeldBy f [] := by
  refine ⟨fun fd => ⟨fun hf => ?_, fun hfd => by cases hfd⟩, .nil⟩
  rw [refersTo_of_file? hf] at h
  cases h

namespace HeldBy

variable {fds fds' : List Int}

theorem perm (h : t.HeldBy f fds) (hp : fds.Perm fds') : t.HeldBy f fds' :=
  ⟨fun fd => (h.file?_iff fd).trans hp.mem_iff, hp.nodup_iff.mp h.nodup⟩

/-- One more duplicate, at the free number `fd`. -/
theorem dup (h : t.HeldBy f fds) (hfree : t.get? fd = none) (keep : Bool) :
    (t.insert fd ⟨f, keep⟩).HeldBy f (fd :: fds) := by
  have hnew : fd ∉ fds := by
    intro hmem
    have hopen := (h.file?_iff fd).mpr hmem
    rw [file?, hfree] at hopen
    cases hopen
  refine ⟨fun k => ?_, List.nodup_cons.mpr ⟨hnew, h.nodup⟩⟩
  by_cases hk : k = fd
  · subst hk
    simp
  · rw [file?_insert_of_ne _ _ hk, h.file?_iff, List.mem_cons]
    simp [hk]

/-- `fd`, one of the numbers at which `f` is open, is closed. -/
theorem close (h : t.HeldBy f (fd :: fds)) : (t.erase fd).HeldBy f fds := by
  obtain ⟨hnew, hnodup⟩ := List.nodup_cons.mp h.nodup
  refine ⟨fun k => ?_, hnodup⟩
  by_cases hk : k = fd
  · subst hk
    simp [file?, hnew]
  · rw [file?_erase_of_ne _ hk, h.file?_iff, List.mem_cons]
    simp [hk]

/-- Another file than `f` is opened, at a free `fd`. -/
theorem insert_other (h : t.HeldBy f fds) (hfree : t.get? fd = none) (he : e.file ≠ f) :
    (t.insert fd e).HeldBy f fds := by
  refine ⟨fun k => ?_, h.nodup⟩
  by_cases hk : k = fd
  · subst hk
    rw [file?_insert_self, ← h.file?_iff, file?, hfree]
    simp [he]
  · rw [file?_insert_of_ne _ _ hk, h.file?_iff]

/-- An `fd` that is not of `f` is closed. -/
theorem erase_other (h : t.HeldBy f fds) (hf : t.file? fd ≠ some f) :
    (t.erase fd).HeldBy f fds := by
  refine ⟨fun k => ?_, h.nodup⟩
  by_cases hk : k = fd
  · subst hk
    rw [← h.file?_iff, file?, get?_erase_self]
    simp [hf]
  · rw [file?_erase_of_ne _ hk, h.file?_iff]

end HeldBy

end FdTable

end Handoff
