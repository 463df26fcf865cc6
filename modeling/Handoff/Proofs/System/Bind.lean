import Handoff.Proofs.Acquire
import Handoff.Proofs.Fd.Table

/-!
# A fresh listener

Binding makes one socket that listens for the address, opens it at the lowest free fd and changes
nothing else but the next port and the files. All that is said of `System.bind` follows from this.

* `System.exists_openSocket_of_bind`: what binding does, whatever the network.
* `System.Binds`, `System.binds_of_bind`: the new socket, and what of the system stays.
* `System.fds_of_bind`, `System.self_bind`: the running process after it.
* `System.acquireFrom_cold`: a process without a descriptor binds.
-/

namespace Handoff

theorem Host.isOf_tcp (h : Host) (hostPort : String) : h.family.IsOf (.tcp hostPort) := by
  cases h <;> simp [Host.family, Family.IsOf]

namespace System

/-- The socket `sock` was made and opened at `fd` of the running process. -/
structure Binds (s s' : System) (sock : Socket) (fd : Int) : Prop where
  /-- The socket `sock` is the last one. -/
  sockets_eq : s'.sockets = s.sockets ++ [sock]
  file?_eq : s'.fds.file? fd = some (.socket s.sockets.length)
  pid_eq : s'.self.pid = s.self.pid
  status_eq : s'.self.status = s.self.status
  others_eq : s'.others = s.others
  nextPid_eq : s'.nextPid = s.nextPid

variable {s s' : System} {fd : Int} {a : Address} {x : Int × System}

theorem binds_openSocket (s : System) (next : Nat) (files : FileTree) (sock : Socket) :
    let o := { s with nextPort := next, files := files }.openSocket sock
    Binds s o.2 sock o.1 :=
  ⟨rfl, FdTable.file?_insert_self _ _ _, rfl, rfl, rfl, rfl⟩

/-- A socket that was made for `a` listens for it. -/
theorem Binds.listensFor {sock : Socket} (h : Binds s s' sock fd) (ht : sock.type = .stream)
    (hl : sock.listening = true) (hf : sock.family.IsOf a) :
    s'.ListensFor s.sockets.length a := by
  refine ⟨sock, ?_, ht, hl, hf⟩
  rw [h.sockets_eq]
  simp

theorem exists_openSocket_of_bindInet {host : Host} {port : Nat}
    (h : s.bindInet .stream host port = .ok x) :
    ∃ next sock, x = { s with nextPort := next }.openSocket sock ∧ sock.type = .stream ∧
      sock.listening = true ∧ sock.family = host.family := by
  unfold bindInet at h
  simp only at h
  split at h
  · cases h
    exact ⟨_, _, rfl, rfl, rfl, rfl⟩
  · split at h
    · cases h
    · cases h
      exact ⟨s.nextPort, _, rfl, rfl, rfl, rfl⟩

theorem exists_openSocket_of_bindPath {path : String} (h : s.bindPath .stream path = .ok x) :
    ∃ files sock, x = { s with files := files }.openSocket sock ∧ sock.type = .stream ∧
      sock.listening = true ∧ sock.family = .unix := by
  unfold bindPath at h
  split at h
  · cases h
  · simp only at h
    split at h
    · cases h
      exact ⟨s.files, _, rfl, rfl, rfl, rfl⟩
    · split at h
      · cases h
      · cases h
        exact ⟨_, _, rfl, rfl, rfl, rfl⟩

theorem exists_bindInet_of_bindTcp {hostPort : String} (h : s.bindTcp hostPort = .ok x) :
    ∃ host port, s.bindInet .stream host port = .ok x := by
  unfold bindTcp at h
  split at h
  · cases h
  · rename_i hosts port _
    obtain ⟨host, -, hhost⟩ := exists_of_firstOk h
    unfold bindHost at hhost
    split at hhost
    · cases hhost
    · rename_i own _
      exact ⟨own, port, hhost⟩

/-- **Bind.** Binding to `a` makes a socket that listens for it, and opens that in a system in which
at most the next port and the files have changed. -/
theorem exists_openSocket_of_bind (h : s.bind a = .ok x) :
    ∃ next files sock, x = { s with nextPort := next, files := files }.openSocket sock ∧
      sock.type = .stream ∧ sock.listening = true ∧ sock.family.IsOf a := by
  cases a with
  | unix path =>
    obtain ⟨files, sock, hx, ht, hl, hf⟩ := exists_openSocket_of_bindPath h
    exact ⟨s.nextPort, files, sock, hx, ht, hl, hf⟩
  | tcp hostPort =>
    obtain ⟨host, port, hinet⟩ := exists_bindInet_of_bindTcp h
    obtain ⟨next, sock, hx, ht, hl, hf⟩ := exists_openSocket_of_bindInet hinet
    refine ⟨next, s.files, sock, hx, ht, hl, ?_⟩
    rw [hf]
    exact Host.isOf_tcp host hostPort

theorem binds_of_bind (h : s.bind a = .ok (fd, s')) :
    ∃ sock, Binds s s' sock fd ∧ s'.ListensFor s.sockets.length a := by
  obtain ⟨next, files, sock, hx, ht, hl, hf⟩ := exists_openSocket_of_bind h
  cases hx
  have hb := binds_openSocket s next files sock
  exact ⟨sock, hb, hb.listensFor ht hl hf⟩

/-- The socket is opened at `lowestFree`, and it closes when a program is executed. -/
theorem fds_of_bind (h : s.bind a = .ok (fd, s')) :
    fd = s.fds.lowestFree 0 ∧ s'.fds = s.fds.insert fd ⟨.socket s.sockets.length, true⟩ := by
  obtain ⟨next, files, sock, hx, -⟩ := exists_openSocket_of_bind h
  cases hx
  exact ⟨rfl, rfl⟩

theorem self_bind (h : s.bind a = .ok (fd, s')) : s'.self = { s.self with fds := s'.self.fds } := by
  obtain ⟨next, files, sock, hx, -⟩ := exists_openSocket_of_bind h
  cases hx
  rfl

/-- A process without a descriptor binds `address` itself. -/
theorem acquireFrom_cold {address : String} {l : Listener} {events : List Event}
    (h : s.acquireFrom address none = ⟨.ok l, s', events⟩) :
    l.kind = .ofAddress (.parse address) ∧
      ∃ sock, Binds s s' sock l.fd ∧ s'.ListensFor s.sockets.length (.parse address) := by
  simp only [acquireFrom, usableDescriptor, bindFresh, Listener.bind] at h
  cases hb : s.bind (.parse address) with
  | error e => simp [hb] at h
  | ok x =>
    obtain ⟨fd, t⟩ := x
    simp only [hb, Outcome.mk.injEq, Except.ok.injEq] at h
    obtain ⟨rfl, rfl, -⟩ := h
    exact ⟨rfl, binds_of_bind hb⟩

end System

end Handoff
