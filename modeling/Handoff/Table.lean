/-!
# Tables

Entries by key, each key once. That is a field of a `Table`, so no operation has to be told.

* `Table.get?_eq_some_iff`: the entries are what is looked up.
* `Table.get?_keep`: what is looked up when only some entries are kept.
-/

namespace Handoff

/-- The values `ν` of some keys `κ`. -/
@[ext] structure Table (κ ν : Type) where
  /-- The keys with their values. -/
  entries : List (κ × ν)
  /-- Each key stands in `entries` once. -/
  distinct : (entries.map Prod.fst).Nodup := by decide
  deriving DecidableEq, Repr

namespace Table

variable {κ ν : Type} [DecidableEq κ] {t : Table κ ν} {k i : κ} {v : ν}

def empty : Table κ ν := ⟨[], .nil⟩

/-- The value of `k`, if it has one. -/
def get? (t : Table κ ν) (k : κ) : Option ν := (t.entries.find? (·.1 == k)).map (·.2)

/-- The entries with `p`. -/
def keep (t : Table κ ν) (p : κ × ν → Bool) : Table κ ν :=
  ⟨t.entries.filter p, t.distinct.sublist (List.filter_sublist.map _)⟩

/-- The table without `k`. -/
def erase (t : Table κ ν) (k : κ) : Table κ ν := t.keep (·.1 != k)

theorem ne_of_mem_erase {x : κ × ν} (hx : x ∈ (t.erase k).entries) : x.1 ≠ k := by
  simpa using (List.mem_filter.mp hx).2

/-- The table in which `k` has the value `v`, whatever it had before. -/
def insert (t : Table κ ν) (k : κ) (v : ν) : Table κ ν where
  entries := (k, v) :: (t.erase k).entries
  distinct := by
    refine List.nodup_cons.mpr ⟨fun hmem => ?_, (t.erase k).distinct⟩
    obtain ⟨x, hx, heq⟩ := List.mem_map.mp hmem
    exact ne_of_mem_erase hx heq

/-- What is looked up are the entries. -/
theorem get?_eq_some_iff : t.get? k = some v ↔ (k, v) ∈ t.entries := by
  constructor
  · intro h
    obtain ⟨x, hx, rfl⟩ := Option.map_eq_some_iff.mp h
    have hk : x.1 = k := by simpa using List.find?_some hx
    rw [← hk]
    exact List.mem_of_find?_eq_some hx
  · intro hmem
    obtain ⟨x, hx⟩ : ∃ x, t.entries.find? (·.1 == k) = some x :=
      Option.isSome_iff_exists.mp (List.find?_isSome.mpr ⟨_, hmem, by simp⟩)
    have hget : t.get? k = some x.2 := by rw [get?, hx]; rfl
    obtain ⟨hk, before, after, hsplit, hno⟩ := List.find?_eq_some_iff_append.mp hx
    have h := t.distinct
    simp only [hsplit, List.map_append, List.map_cons, List.nodup_append, List.nodup_cons] at h
    rw [hsplit] at hmem
    -- The entry `x` that is found is the only one of `k`: no other stands before it or behind it.
    rcases List.mem_append.mp hmem with hbefore | hmem
    · simpa using hno _ hbefore
    · rcases List.mem_cons.mp hmem with rfl | hafter
      · exact hget
      · have hx : x.1 = k := by simpa using hk
        exact (h.2.1.1 (List.mem_map.mpr ⟨_, hafter, hx.symm⟩)).elim

theorem get?_eq_none_iff : t.get? k = none ↔ ∀ x ∈ t.entries, x.1 ≠ k := by
  simp [get?]

/-- A kept entry has its value, and no other key has one. -/
theorem get?_keep (t : Table κ ν) (p : κ × ν → Bool) (k : κ) :
    (t.keep p).get? k = (t.get? k).filter fun v => p (k, v) := by
  apply Option.ext
  intro v
  rw [get?_eq_some_iff, keep, List.mem_filter, Option.filter_eq_some_iff, get?_eq_some_iff]

@[simp] theorem get?_erase_self (t : Table κ ν) (k : κ) : (t.erase k).get? k = none :=
  get?_eq_none_iff.mpr fun _ => ne_of_mem_erase

theorem get?_erase_of_ne (t : Table κ ν) (h : i ≠ k) : (t.erase k).get? i = t.get? i := by
  have hk : (i != k) = true := bne_iff_ne.mpr h
  rw [erase, get?_keep]
  cases t.get? i <;> simp [hk]

@[simp] theorem get?_insert_self (t : Table κ ν) (k : κ) (v : ν) :
    (t.insert k v).get? k = some v := by
  simp [get?, insert]

theorem get?_insert_of_ne (t : Table κ ν) (v : ν) (h : i ≠ k) :
    (t.insert k v).get? i = t.get? i := by
  rw [← get?_erase_of_ne t h]
  simp [get?, insert, Ne.symm h]

/-- A key without a value can be erased without a change. -/
theorem erase_of_get?_eq_none (h : t.get? k = none) : t.erase k = t := by
  apply Table.ext
  refine List.filter_eq_self.mpr fun x hx => ?_
  simpa using get?_eq_none_iff.mp h x hx

theorem entries_insert_of_get?_eq_none (v : ν) (h : t.get? k = none) :
    (t.insert k v).entries = (k, v) :: t.entries := by
  show (k, v) :: (t.erase k).entries = _
  rw [erase_of_get?_eq_none h]

/-- A new key that is erased again leaves the table that was there. -/
theorem erase_insert (v : ν) (h : t.get? k = none) : (t.insert k v).erase k = t := by
  have hself : (t.insert k v).erase k = (t.erase k).erase k := by
    apply Table.ext
    simp [insert, erase, keep]
  rw [hself, erase_of_get?_eq_none h, erase_of_get?_eq_none h]

end Table

end Handoff
