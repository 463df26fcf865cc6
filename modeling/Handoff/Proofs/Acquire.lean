import Handoff.Acquire
import Handoff.Proofs.Descriptor.RoundTrip

/-!
# Acquiring with a matching descriptor

A descriptor that was made for the address decides everything: the slot that it names is taken over
or reported, and the address is never bound.

* `System.ListensFor`, `System.Usable`: which sockets and slots can be taken over.
* `System.Defect`: the first thing that is wrong with a slot.
* `System.usability_eq_ok_iff`, `System.defect_of_usability`: the checks find just that.
* `System.acquireFrom_matching`: success exactly for a usable slot, a failure that names the slot
  for every other one, and an unchanged world in both cases.
-/

namespace Handoff

/-- The families of the sockets that are bound to an address: a `.tcp` host is of `.inet` or
`.inet6`, a path of `.unix`. -/
def Family.IsOf : Family → Address → Prop
  | f, .tcp _ => f = .inet ∨ f = .inet6
  | f, .unix _ => f = .unix

theorem ListenerKind.suits_ofAddress {a : Address} {f : Family} :
    (ListenerKind.ofAddress a).suits f = true ↔ f.IsOf a := by
  cases a <;> cases f <;> simp [ofAddress, suits, Family.IsOf]

namespace System

/-- The socket `id` accepts streams and is of a family of the address `a`. -/
def ListensFor (s : System) (id : Nat) (a : Address) : Prop :=
  ∃ sock, s.sockets[id]? = some sock ∧ sock.type = .stream ∧ sock.listening = true ∧
    sock.family.IsOf a

/-- `slot` is open and refers to a socket that can be taken over for `a`. -/
def Usable (s : System) (a : Address) (slot : Int) : Prop :=
  ∃ id, s.fds.file? slot = some (.socket id) ∧ s.ListensFor id a

theorem ListensFor.congr {s s' : System} {id : Nat} {a : Address} (h : s.ListensFor id a)
    (hs : s'.sockets = s.sockets) : s'.ListensFor id a := by
  unfold ListensFor
  rw [hs]
  exact h

/-- What is wrong with `slot`: the first of the conditions, in this order, that does not hold. -/
inductive Defect (s : System) (a : Address) (slot : Int) : InvalidInput → Prop
  /-- It is closed, or open but no socket. -/
  | notSocket : s.socketAt? slot = none → Defect s a slot .notSocket
  /-- It is a socket of another type. -/
  | notStream {sock : Socket} : s.socketAt? slot = some sock → sock.type ≠ .stream →
      Defect s a slot .notStream
  /-- It is a stream socket that accepts no connections. -/
  | notListening {sock : Socket} : s.socketAt? slot = some sock → sock.type = .stream →
      sock.listening = false → Defect s a slot .notListening
  /-- It is a listening stream socket of a family of other addresses. -/
  | otherFamily {sock : Socket} : s.socketAt? slot = some sock → sock.type = .stream →
      sock.listening = true → ¬ sock.family.IsOf a → Defect s a slot .otherFamily

variable {s : System} {a : Address} {slot : Int}

theorem socketAt?_eq_some {sock : Socket} :
    s.socketAt? slot = some sock ↔
      ∃ id, s.fds.file? slot = some (.socket id) ∧ s.sockets[id]? = some sock := by
  unfold socketAt?
  split
  · rename_i id h; simp [h]
  · rename_i hno
    simp only [reduceCtorEq, false_iff, not_exists, not_and]
    exact fun id h => (hno id h).elim

theorem usable_iff :
    s.Usable a slot ↔ ∃ sock, s.socketAt? slot = some sock ∧ sock.type = .stream ∧
      sock.listening = true ∧ sock.family.IsOf a := by
  constructor
  · rintro ⟨id, hf, sock, hs, h⟩
    exact ⟨sock, socketAt?_eq_some.mpr ⟨id, hf, hs⟩, h⟩
  · rintro ⟨sock, hs, h⟩
    obtain ⟨id, hf, hs⟩ := socketAt?_eq_some.mp hs
    exact ⟨id, hf, sock, hs, h⟩

/-- `usability` passes exactly the slots that are `Usable`. -/
theorem usability_eq_ok_iff : s.usability a slot = .ok () ↔ s.Usable a slot := by
  rw [usable_iff]
  unfold usability
  cases hs : s.socketAt? slot with
  | none => simp
  | some sock =>
    -- The checks are made in the order of the conjuncts, so each `if` decides one of them.
    simp only [Option.some.injEq, exists_eq_left', ← ListenerKind.suits_ofAddress]
    split
    · rename_i ht; simp [ht]
    · rename_i ht
      split
      · rename_i hl; simp_all
      · rename_i hl; split <;> simp_all

/-- And `s.usability` reports the first thing that is wrong with the slot. -/
theorem defect_of_usability {r : InvalidInput} (h : s.usability a slot = .error r) :
    s.Defect a slot r := by
  unfold usability at h
  split at h
  · rename_i hs; cases h; exact .notSocket hs
  · rename_i sock hs
    split at h
    · rename_i ht; cases h; exact .notStream hs ht
    · rename_i ht
      have ht := Classical.not_not.mp ht
      split at h
      · rename_i hl; cases h; exact .notListening hs ht (by simpa using hl)
      · rename_i hl
        split at h
        · rename_i hf
          cases h
          refine .otherFamily hs ht (by simpa using hl) fun hof => ?_
          simp [ListenerKind.suits_ofAddress.mpr hof] at hf
        · cases h

/-! ## With the descriptor in the environment

The call differs from one with the same descriptor given in the variables that it leaves. -/

theorem sockets_acquire (s : System) (address : String) :
    (s.acquire address).state.sockets =
      (s.acquireFrom address (s.self.env.getText? listenerVariable)).state.sockets := by
  unfold acquire
  simp only
  split <;> rfl

theorem result_acquire (s : System) (address : String) :
    (s.acquire address).result =
      (s.acquireFrom address (s.self.env.getText? listenerVariable)).result := by
  unfold acquire
  simp only
  split
  · rename_i h _; exact h.symm ▸ rfl
  · rfl

/-! ## With a descriptor for the address -/

variable {address text : String} {d : Descriptor}

theorem usableDescriptor_matching (hd : Descriptor.decode text = .ok d)
    (hm : d.address = address) : usableDescriptor address (some text) = (some d, []) := by
  simp [usableDescriptor, hd, Descriptor.Matches, hm]

/-- A slot that is `Usable` is taken over as it is. -/
theorem acquireFrom_usable (hd : Descriptor.decode text = .ok d) (hm : d.address = address)
    (hu : s.Usable (.parse address) d.slot) :
    s.acquireFrom address (some text) =
      ⟨.ok ⟨.ofAddress (.parse address), d.slot⟩, s, [.imported address d.slot d.debugName]⟩ := by
  simp [acquireFrom, usableDescriptor_matching hd hm, inherit, usability_eq_ok_iff.mpr hu]

/-- A `slot` that fails the checks with `r` is reported and left as it is. -/
theorem acquireFrom_unusable {r : InvalidInput} (hd : Descriptor.decode text = .ok d)
    (hm : d.address = address) (h : s.usability (.parse address) d.slot = .error r) :
    s.acquireFrom address (some text) =
      ⟨.error (.inherit address d.slot (.invalidInput r)), s, []⟩ := by
  simp [acquireFrom, usableDescriptor_matching hd hm, inherit, h, hm]

/-- So every other slot is reported with its `Defect`. -/
theorem acquireFrom_defect (hd : Descriptor.decode text = .ok d) (hm : d.address = address)
    (hu : ¬ s.Usable (.parse address) d.slot) :
    ∃ r, s.Defect (.parse address) d.slot r ∧
      s.acquireFrom address (some text) =
        ⟨.error (.inherit address d.slot (.invalidInput r)), s, []⟩ := by
  cases h : s.usability (.parse address) d.slot with
  | ok u => exact (hu (usability_eq_ok_iff.mp h)).elim
  | error r => exact ⟨r, defect_of_usability h, acquireFrom_unusable hd hm h⟩

/-- **All or nothing.** With a descriptor `d` for `address` (`hd`, `hm`), a listener is acquired
exactly if `d.slot` is `Usable`, and it is the slot itself. For every other slot the failure names
the address, the slot and its `Defect`. The world is the same afterwards in all cases. -/
theorem acquireFrom_matching (s : System) (hd : Descriptor.decode text = .ok d)
    (hm : d.address = address) :
    let o := s.acquireFrom address (some text)
    ((∃ l, o.result = .ok l) ↔ s.Usable (.parse address) d.slot) ∧
    (∀ l, o.result = .ok l → l.fd = d.slot ∧ l.kind = .ofAddress (.parse address)) ∧
    (∀ e, o.result = .error e →
      ∃ r, e = .inherit address d.slot (.invalidInput r) ∧ s.Defect (.parse address) d.slot r) ∧
    o.state = s := by
  by_cases hu : s.Usable (.parse address) d.slot
  · simp only [acquireFrom_usable hd hm hu]
    refine ⟨iff_of_true ⟨_, rfl⟩ hu, ?_, ?_, trivial⟩
    · intro l hl; cases hl; exact ⟨rfl, rfl⟩
    · intro e he; cases he
  · obtain ⟨r, hr, h⟩ := acquireFrom_defect hd hm hu
    simp only [h]
    refine ⟨iff_of_false (fun ⟨_, hl⟩ => by cases hl) hu, ?_, ?_, trivial⟩
    · intro l hl; cases hl
    · intro e he; cases he; exact ⟨r, rfl, hr⟩

/-- A machine with the program `/app`, which its only process runs. -/
def idle : System :=
  .ofProcess .isolated (FileTree.empty.insert ["app"] (.program "/app"))
    ⟨1, .standard, .empty, [], some "/app", [], none⟩

/-- That machine when the process has the socket `sock` at `fd`. -/
def holding (fd : Int) (sock : Socket) : System :=
  { idle.withFds (idle.fds.insert fd ⟨.socket 0, true⟩) with sockets := [sock] }

/-- That machine when the process has a stream socket of the loopback host at `fd`. -/
def holdingLoopback (fd : Int) (listening : Bool) : System :=
  holding fd ⟨.inet, .stream, listening, .inet .loopback 9000, 0⟩

/-- A listening socket at fd 7 is taken over there. -/
theorem acquireFrom_matching_loopback :
    let o := (holdingLoopback 7 true).acquireFrom "127.0.0.1:9000"
      (some (Descriptor.encode ⟨"127.0.0.1:9000", 7, ""⟩))
    o.result = .ok ⟨.tcp, 7⟩ ∧ o.state = holdingLoopback 7 true := by
  intro o
  have hd : Descriptor.decode (Descriptor.encode ⟨"127.0.0.1:9000", 7, ""⟩) =
      .ok ⟨"127.0.0.1:9000", 7, ""⟩ := by
    rw [Descriptor.decode_encode_eq _ (by decide) (by decide)]
    rfl
  obtain ⟨hok, hl, -, hs⟩ := acquireFrom_matching (holdingLoopback 7 true) hd rfl
  obtain ⟨⟨kind, fd⟩, h⟩ := hok.mpr ⟨0, rfl, _, rfl, rfl, rfl, .inl rfl⟩
  obtain ⟨hfd, hkind⟩ := hl _ h
  cases hfd
  cases hkind
  exact ⟨h, hs⟩

end System

end Handoff
