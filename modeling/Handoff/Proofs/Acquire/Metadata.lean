import Handoff.Proofs.Acquire
import Handoff.Proofs.System.Bind

/-!
# What an acquisition depends on

A metadata value comes to nothing but the slot that it names for the address, or to no slot. Two
values that name the same slot have the same effect however they are written, and so have two that
name none: whatever else they say is logged at most.

* `Unusable`, `Names`: the two sorts of metadata values, by the grammar of descriptors.
* `usableSlot?_eq_none_iff`, `usableSlot?_eq_some_iff`: the slot that is read is the one that is
  named.
* `System.acquireAt`, `System.acquireFrom_eq_acquireAt`: the slot decides about result and system.
* `System.acquireFrom_through_slot`: so two acquisitions agree if their metadata values do.
-/

namespace Handoff

open Descriptor (Spells)

/-! ## What a metadata value says -/

/-- A metadata value that names no slot for `address`. -/
inductive Unusable (address : String) : Option String → Prop
  | absent : Unusable address none
  /-- It stands for no descriptor. -/
  | malformed {text : String} : (¬ ∃ d, Spells text.toList d) → Unusable address (some text)
  /-- It names a slot that is reserved. -/
  | reserved {text : String} {d : Descriptor} : Spells text.toList d → d.slot < 3 →
      Unusable address (some text)
  /-- It was made for another address. -/
  | foreign {text : String} {d : Descriptor} : Spells text.toList d → d.address ≠ address →
      Unusable address (some text)

/-- A metadata value that names `slot` for `address`: it is a spelling of a descriptor with both. -/
inductive Names (address : String) (slot : Int) : Option String → Prop
  | mk {text : String} {d : Descriptor} : Spells text.toList d → d.address = address →
      d.slot = slot → 3 ≤ slot → Names address slot (some text)

/-- The slot that is read from `metadata`. -/
def usableSlot? (address : String) (metadata : Option String) : Option Int :=
  (usableDescriptor address metadata).1.map (·.slot)

variable {address : String} {metadata : Option String} {slot : Int}

/-- A text that is decoded is used if it was made for `address`. -/
theorem usableSlot?_of_decode {text : String} {d : Descriptor}
    (h : Descriptor.decode text = .ok d) :
    usableSlot? address (some text) = if d.address = address then some d.slot else none := by
  by_cases hm : d.address = address <;>
    simp [usableSlot?, usableDescriptor, h, Descriptor.Matches, hm]

theorem usableSlot?_of_decode_error {text : String} {e : Descriptor.Error}
    (h : Descriptor.decode text = .error e) : usableSlot? address (some text) = none := by
  simp [usableSlot?, usableDescriptor, h]

/-- Each value of `metadata` is of one of the two sorts. -/
theorem unusable_or_names (address : String) (metadata : Option String) :
    Unusable address metadata ∨ ∃ slot, Names address slot metadata := by
  cases metadata with
  | none => exact .inl .absent
  | some text =>
    by_cases hspells : ∃ d, Spells text.toList d
    · obtain ⟨d, hd⟩ := hspells
      by_cases hslot : d.slot < 3
      · exact .inl (.reserved hd hslot)
      · by_cases hm : d.address = address
        · exact .inr ⟨d.slot, .mk hd hm rfl (by omega)⟩
        · exact .inl (.foreign hd hm)
    · exact .inl (.malformed hspells)

theorem Unusable.usableSlot?_eq (h : Unusable address metadata) :
    usableSlot? address metadata = none := by
  cases h with
  | absent => rfl
  | malformed hno =>
    obtain ⟨m, hm⟩ := Descriptor.decode_of_not_spells hno
    exact usableSlot?_of_decode_error hm
  | reserved hd hslot =>
    have hdecode := Descriptor.decode_of_spells hd
    rw [if_pos hslot] at hdecode
    exact usableSlot?_of_decode_error hdecode
  | @foreign text d hd hm =>
    have hdecode := Descriptor.decode_of_spells hd
    by_cases hslot : d.slot < 3
    · rw [if_pos hslot] at hdecode
      exact usableSlot?_of_decode_error hdecode
    · rw [if_neg hslot] at hdecode
      rw [usableSlot?_of_decode hdecode, if_neg hm]

theorem Names.usableSlot?_eq (h : Names address slot metadata) :
    usableSlot? address metadata = some slot := by
  obtain ⟨hd, hm, hslot, hle⟩ := h
  have hdecode := Descriptor.decode_of_spells hd
  rw [if_neg (by omega)] at hdecode
  rw [usableSlot?_of_decode hdecode, if_pos hm, hslot]

/-- No slot is read exactly from the values that are `Unusable`. -/
theorem usableSlot?_eq_none_iff :
    usableSlot? address metadata = none ↔ Unusable address metadata := by
  refine ⟨fun h => ?_, Unusable.usableSlot?_eq⟩
  rcases unusable_or_names address metadata with hu | ⟨slot, hn⟩
  · exact hu
  · rw [hn.usableSlot?_eq] at h
    cases h

/-- And `slot` is read exactly from those that name it. -/
theorem usableSlot?_eq_some_iff :
    usableSlot? address metadata = some slot ↔ Names address slot metadata := by
  refine ⟨fun h => ?_, Names.usableSlot?_eq⟩
  rcases unusable_or_names address metadata with hu | ⟨k, hn⟩
  · rw [hu.usableSlot?_eq] at h
    cases h
  · rw [hn.usableSlot?_eq] at h
    cases h
    exact hn

/-! ## What becomes of it -/

namespace System

/-- What it comes to when `address` is bound and nothing else is done. -/
def coldBind (s : System) (address : String) : Except AcquireError Listener × System :=
  match Listener.bind s (.parse address) with
  | .error e => (.error (.bind address e), s)
  | .ok (l, s') => (.ok l, s')

/-- What an acquisition comes to, given the slot that is named: `usability` decides over the slot,
and with none there is a `coldBind`. -/
def acquireAt (s : System) (address : String) : Option Int → Except AcquireError Listener × System
  | none => s.coldBind address
  | some slot =>
    match s.usability (.parse address) slot with
    | .error r => (.error (.inherit address slot (.invalidInput r)), s)
    | .ok () => (.ok ⟨.ofAddress (.parse address), slot⟩, s)

theorem bindFresh_eq_coldBind (s : System) (address : String) :
    ((s.bindFresh address).result, (s.bindFresh address).state) = s.coldBind address := by
  unfold bindFresh coldBind
  cases Listener.bind s (.parse address) <;> rfl

/-- A descriptor that is used was made for `address`. -/
theorem address_of_usableDescriptor {d : Descriptor} {events : List Event}
    (h : usableDescriptor address metadata = (some d, events)) : d.address = address := by
  unfold usableDescriptor at h
  split at h
  · cases h
  · split at h
    · cases h
    · split at h
      · rename_i hm
        cases h
        exact hm
      · cases h

/-- **Factorization.** Of `metadata` only the slot matters that is read from it. -/
theorem acquireFrom_eq_acquireAt (s : System) (address : String) (metadata : Option String) :
    ((s.acquireFrom address metadata).result, (s.acquireFrom address metadata).state) =
      s.acquireAt address (usableSlot? address metadata) := by
  unfold acquireFrom usableSlot?
  rcases hu : usableDescriptor address metadata with ⟨_ | d, events⟩
  · exact s.bindFresh_eq_coldBind address
  · have hm := address_of_usableDescriptor hu
    simp only [inherit, Option.map_some, acquireAt, hm]
    cases s.usability (.parse address) d.slot <;> rfl

/-- Every fd but `fd`, and every socket that there was, is in `s'` as it is in `s`. -/
structure Spares (s s' : System) (fd : Int) : Prop where
  /-- The other fds are open or free as before, and refer to the same. -/
  get?_eq : ∀ k, k ≠ fd → s'.fds.get? k = s.fds.get? k
  socket_eq : ∀ (id : Nat) (sock : Socket), s.sockets[id]? = some sock →
    s'.sockets[id]? = some sock

/-- A `coldBind` touches no fd but the lowest free one. -/
theorem spares_coldBind (s : System) (address : String) :
    Spares s (s.coldBind address).2 (s.fds.lowestFree 0) := by
  unfold coldBind Listener.bind
  cases hb : s.bind (.parse address) with
  | error e => exact ⟨fun _ _ => rfl, fun _ _ h => h⟩
  | ok x =>
    obtain ⟨new, s'⟩ := x
    obtain ⟨hnew, hfds⟩ := fds_of_bind hb
    obtain ⟨sock, hbinds, -⟩ := binds_of_bind hb
    refine ⟨fun k hk => ?_, fun id sock' hsock => ?_⟩
    · rw [hfds, hnew, FdTable.get?_insert_of_ne _ _ hk]
    · rw [hbinds.sockets_eq]
      rw [List.getElem?_append_left (List.getElem?_eq_some_iff.mp hsock).1]
      exact hsock

/-- **The slot alone.** Two metadata values that are `Unusable` for `address` have the same result
and leave the same system. Both are those of a `coldBind`, which touches no slot that is open: it
opens the lowest free fd at most, whatever they name. Two values that name the same `slot` have the
same result and leave the same system as well, and every value is of one of these sorts. -/
theorem acquireFrom_through_slot (s : System) (address : String) :
    (∀ m₁ m₂, Unusable address m₁ → Unusable address m₂ →
      let o₁ := s.acquireFrom address m₁
      let o₂ := s.acquireFrom address m₂
      o₁.result = o₂.result ∧ o₁.state = o₂.state ∧ (o₁.result, o₁.state) = s.coldBind address ∧
        Spares s o₁.state (s.fds.lowestFree 0)) ∧
    (∀ slot m₁ m₂, Names address slot m₁ → Names address slot m₂ →
      let o₁ := s.acquireFrom address m₁
      let o₂ := s.acquireFrom address m₂
      o₁.result = o₂.result ∧ o₁.state = o₂.state) ∧
    ∀ m, Unusable address m ∨ ∃ slot, Names address slot m := by
  -- The descriptor enters an acquisition only as `usableSlot?`, so two values agree if that is the
  -- same.
  have agree : ∀ m₁ m₂, usableSlot? address m₁ = usableSlot? address m₂ →
      (s.acquireFrom address m₁).result = (s.acquireFrom address m₂).result ∧
        (s.acquireFrom address m₁).state = (s.acquireFrom address m₂).state := by
    intro m₁ m₂ h
    have heq := s.acquireFrom_eq_acquireAt address m₁
    rw [h, ← s.acquireFrom_eq_acquireAt address m₂] at heq
    exact Prod.mk.inj heq
  refine ⟨fun m₁ m₂ h₁ h₂ => ?_, fun slot m₁ m₂ h₁ h₂ => ?_, unusable_or_names address⟩
  · have hnone := usableSlot?_eq_none_iff.mpr h₁
    have hcold : ((s.acquireFrom address m₁).result, (s.acquireFrom address m₁).state) =
        s.coldBind address := by
      rw [acquireFrom_eq_acquireAt, hnone]
      rfl
    obtain ⟨hresult, hstate⟩ := agree m₁ m₂ (hnone.trans (usableSlot?_eq_none_iff.mpr h₂).symm)
    have hspares := s.spares_coldBind address
    rw [← hcold] at hspares
    exact ⟨hresult, hstate, hcold, hspares⟩
  · exact agree m₁ m₂
      ((usableSlot?_eq_some_iff.mpr h₁).trans (usableSlot?_eq_some_iff.mpr h₂).symm)

/-- A process holds a listening socket at fd 7. A list that breaks off behind that number and a
descriptor of it for another address have the same effect, and none on the fd. A compact object and
a list with blanks and another debug name have the same result. -/
theorem acquireFrom_through_slot_holding :
    let o := fun text => (holdingLoopback 7 true).acquireFrom "127.0.0.1:9000" (some text)
    let broken := o "[\"127.0.0.1:9000\",7"
    let foreign := o (Descriptor.encode ⟨"127.0.0.1:9001", 7, ""⟩)
    let object := o (Descriptor.encode ⟨"127.0.0.1:9000", 7, ""⟩)
    let list := o " [ \"127.0.0.1:9000\" , 7, \"other\" ]"
    broken.result = foreign.result ∧ broken.state = foreign.state ∧
      broken.state.fds.get? 7 = (holdingLoopback 7 true).fds.get? 7 ∧
      object.result = list.result ∧ object.state = list.state := by
  intro o broken foreign object list
  obtain ⟨hcold, hslot, -⟩ := acquireFrom_through_slot (holdingLoopback 7 true) "127.0.0.1:9000"
  have spells : ∀ a, Spells (Descriptor.encode ⟨a, 7, ""⟩).toList ⟨a, 7, ""⟩ := by
    intro a
    rw [Descriptor.encode, String.toList_ofList]
    exact Descriptor.spells_write ⟨a, 7, ""⟩ (show (-2147483648 : Int) ≤ 7 by decide)
      (show (7 : Int) < 2147483648 by decide)
  have hbroken : Unusable "127.0.0.1:9000" (some "[\"127.0.0.1:9000\",7") := by
    have hparse : (Descriptor.parse "[\"127.0.0.1:9000\",7".toList).isOk = false := by cbv
    refine .malformed ?_
    rintro ⟨d, hd⟩
    rw [Descriptor.parse_eq_ok_iff.mpr hd] at hparse
    cases hparse
  have hlist : Spells " [ \"127.0.0.1:9000\" , 7, \"other\" ]".toList
      ⟨"127.0.0.1:9000", 7, "other"⟩ := by
    have hd : Descriptor.decode " [ \"127.0.0.1:9000\" , 7, \"other\" ]" =
        .ok ⟨"127.0.0.1:9000", 7, "other"⟩ := by
      cbv
    exact (Descriptor.spells_of_decode hd).1
  have hforeign : Unusable "127.0.0.1:9000" (some (Descriptor.encode ⟨"127.0.0.1:9001", 7, ""⟩)) :=
    .foreign (spells "127.0.0.1:9001") (by decide)
  obtain ⟨hresult, hstate, -, hspares⟩ := hcold _ _ hbroken hforeign
  obtain ⟨hresult', hstate'⟩ :=
    hslot 7 _ _ (.mk (spells _) rfl rfl (by decide)) (.mk hlist rfl rfl (by decide))
  exact ⟨hresult, hstate, hspares.get?_eq 7 (by decide), hresult', hstate'⟩

end System

end Handoff
