import Handoff.Proofs.Acquire
import Handoff.Proofs.Descriptor.RoundTrip
import Handoff.Proofs.Export
import Handoff.Proofs.Spawn.Plan
import Handoff.Proofs.System.Environment

/-!
# The child takes over what the parent exported

The four parts of a handoff fit together: the descriptor that the parent writes is the one that the
child reads, the slot in it is the one that the launch sets up, and the socket there passes all
checks, because it is the socket of the parent's listener.

* `Process.Inherits`: a process that was launched with a socket and its descriptor.
* `System.inherits_of_launch`: a launch for an exported listener starts such a process.
* `System.acquireFrom_inherited`: such a process takes the socket over.
* `System.acquireFrom_launched`: the whole way, for every address, listener, fd table and program.
-/

namespace Handoff

/-- `p` has the socket `id` at the `listenerSlot` and the descriptor for `address` and that slot. -/
structure Process.Inherits (p : Process) (id : Nat) (address name : String) : Prop where
  /-- The slot refers to the socket. -/
  slot : p.fds.file? listenerSlot = some (.socket id)
  /-- The variable holds the descriptor. -/
  descriptor :
    p.env.getText? listenerVariable = some (Descriptor.ofListener address name).encode

namespace System

variable {s s₁ s₂ : System} {l : Listener} {id : Nat} {address name : String} {program : OsText}
  {args : List OsText} {d : Descriptor} {handle : Int} {plan : SpawnPlan} {c : Child}

/-- An exported listener stays open, and `handle` refers to its file. -/
theorem file?_of_exportAs {f : File} (hopen : s.fds.file? l.fd = some f)
    (hx : l.exportAs s address = (.ok (d, handle), s₁)) :
    s₁.fds.file? l.fd = some f ∧ s₁.fds.file? handle = some f := by
  obtain ⟨-, g, hg, rfl, rfl, -⟩ := Listener.exportAs_eq_ok.mp hx
  rw [hopen] at hg
  cases hg
  rw [fds_withFds, FdTable.file?_insert_of_ne _ _ (FdTable.ne_lowestFree hopen _)]
  exact ⟨hopen, FdTable.file?_insert_self _ _ _⟩

/-- The table that is set up for a child refers to the exported file at the `listenerSlot`, before
and after the program is executed. -/
theorem file?_of_installHandles {t t' : FdTable} {f : File} (hopen : t.file? handle = some f)
    (ht : installHandles t 0 (childHandles handle) = .ok t') :
    t'.file? listenerSlot = some f ∧ t'.afterExec.file? listenerSlot = some f := by
  obtain ⟨g, hg, rfl⟩ := installHandles_eq_ok.mp ht
  rw [hopen] at hg
  cases hg
  refine ⟨FdTable.file?_insert_self _ _ _, FdTable.file?_eq_some.mpr ⟨⟨f, false⟩, ?_, rfl⟩⟩
  rw [FdTable.get?_afterExec, FdTable.kept?_eq_some]
  exact ⟨FdTable.get?_insert_self _ _ _, rfl⟩

/-- A process with a socket for `address` at the `listenerSlot` takes it over by its descriptor. -/
theorem acquireFrom_inherited (hslot : s.fds.file? listenerSlot = some (.socket id))
    (hl : s.ListensFor id (.parse address)) (name : String) :
    s.acquireFrom address (some (Descriptor.ofListener address name).encode) =
      ⟨.ok ⟨.ofAddress (.parse address), listenerSlot⟩, s,
        [.imported address listenerSlot name]⟩ :=
  acquireFrom_usable (Descriptor.decode_encode_ofListener address name) rfl ⟨id, hslot, hl⟩

/-- A launch for an exported socket starts a process that `Inherits` it. -/
theorem inherits_of_launch {p : Process} (hopen : s.fds.file? handle = some (.socket id))
    (hp : SpawnPlan.ofProgram program args (.ofListener address name) handle = .ok plan)
    (hc : plan.child s = .ok p) : p.Inherits id address name := by
  obtain ⟨dir, -, rfl⟩ := SpawnPlan.ofProgram_eq_ok.mp hp
  obtain ⟨t, ht, hfds, henv, -⟩ := SpawnPlan.of_child hc
  refine ⟨?_, ?_⟩
  · rw [hfds]
    exact (file?_of_installHandles hopen ht).2
  · rw [henv]
    exact Environment.getText?_set_self _ _ _

/-- **Handoff.** A listener `l` whose kind agrees with `address` is exported (`hx`), and a child is
launched from the plan for it (`hp`, `hc`). The parent still holds the listener. In the fd table of
the child, as it is set up (`t`) and as the program finds it (`p.fds`), the listener for `address`
and the descriptor of the plan is the `listenerSlot`, of the same kind and on the same socket.
Nothing is bound: the system `v` in which the child runs, whoever else runs there, is the same
afterwards. -/
theorem acquireFrom_launched (hopen : s.fds.file? l.fd = some (.socket id))
    (hlisten : s.ListensFor id (.parse address)) (hkind : l.kind = .ofAddress (.parse address))
    (hx : l.exportAs s address = (.ok (d, handle), s₁))
    (hp : SpawnPlan.ofProgram program args d handle = .ok plan)
    (hc : plan.launch s₁ = (.ok c, s₂)) :
    ∃ t p, installHandles s₁.fds 0 plan.handles = .ok t ∧ p.fds = t.afterExec ∧
      p.env.getText? listenerVariable = some plan.entry.2 ∧ p.pid = c.pid ∧
      s₂.others = p :: s.others ∧ s₂.fds.file? l.fd = some (.socket id) ∧
      ∀ v : System, v.sockets = s₂.sockets → v.fds = t ∨ v.fds = p.fds →
        v.fds.file? listenerSlot = some (.socket id) ∧
        v.acquireFrom address (some plan.entry.2) =
          ⟨.ok ⟨l.kind, listenerSlot⟩, v, [.imported address listenerSlot d.debugName]⟩ := by
  have hfile := file?_of_exportAs hopen hx
  obtain ⟨-, f, -, -, hs₁, rfl⟩ := Listener.exportAs_eq_ok.mp hx
  obtain ⟨p, hchild, rfl, rfl⟩ := SpawnPlan.of_launch hc
  have hin := inherits_of_launch hfile.2 hp hchild
  obtain ⟨t, ht, hfds, -, -, hpid, -⟩ := SpawnPlan.of_child hchild
  obtain ⟨dir, -, rfl⟩ := SpawnPlan.ofProgram_eq_ok.mp hp
  have hslot := file?_of_installHandles hfile.2 ht
  refine ⟨t, p, ht, hfds, hin.descriptor, hpid, by rw [hs₁]; rfl, hfile.1, fun v hv hfd => ?_⟩
  have hvslot : v.fds.file? listenerSlot = some (.socket id) := by
    rcases hfd with h | h <;> rw [h]
    · exact hslot.1
    · exact hin.slot
  have hsock : v.sockets = s.sockets := by rw [hv, hs₁]; rfl
  rw [hkind]
  exact ⟨hvslot, acquireFrom_inherited hvslot (hlisten.congr hsock) _⟩

/-- A machine whose only process, of the program `/app`, serves a Unix socket. -/
def servingUnix : System := holding 3 ⟨.unix, .stream, true, .path "/s", 0⟩

/-- That machine once the socket is exported. -/
def exportedUnix : System := (Listener.exportAs ⟨.unix, 3⟩ servingUnix "/s").2

/-- The plan for a child there. -/
def unixPlan : SpawnPlan :=
  ⟨"/app", [], "/", (listenerVariable, (Descriptor.ofListener "/s" "unix:/s").encode),
    childHandles exportFloor⟩

/-- The child takes the socket over. -/
theorem acquireFrom_launched_unix :
    ∃ p, (unixPlan.launch exportedUnix).2.others = [p] ∧
      (({ (unixPlan.launch exportedUnix).2 with self := p }).acquireFrom "/s"
        (some unixPlan.entry.2)).result = .ok ⟨.unix, listenerSlot⟩ := by
  have hopen : servingUnix.fds.file? 3 = some (.socket 0) := rfl
  have hlisten : servingUnix.ListensFor 0 (.parse "/s") := ⟨_, rfl, rfl, rfl, rfl⟩
  have hx : Listener.exportAs ⟨.unix, 3⟩ servingUnix "/s" =
      (.ok (.ofListener "/s" "unix:/s", exportFloor), exportedUnix) := rfl
  have hp : SpawnPlan.ofProgram "/app" [] (.ofListener "/s" "unix:/s") exportFloor =
      .ok unixPlan := rfl
  have hc : (unixPlan.launch exportedUnix).1 = .ok ⟨2, true, none⟩ := by rfl
  obtain ⟨t, p, -, -, -, -, hs, -, hacq⟩ :=
    acquireFrom_launched hopen hlisten rfl hx hp (Prod.ext hc rfl)
  refine ⟨p, hs, ?_⟩
  rw [(hacq { (unixPlan.launch exportedUnix).2 with self := p } rfl (.inr rfl)).2]

end System

end Handoff
