import Handoff.Proofs.Acquire.Consumption
import Handoff.Proofs.Server.Steps

/-!
# A relaunched program asks for the address that it was handed

A replacement reads its settings anew, from the arguments and variables that its parent passed on,
and looks for a descriptor for the address that it finds there. The parent wrote the descriptor for
the address in its own settings. So all depends on the settings being the same, generation after
generation.

* `Process.settings`: what a program reads from its arguments and variables.
* `Process.Repeats`: a process has the arguments and variables of another one, the descriptor apart.
* `System.Begets`: a server launches a replacement, at any point of its work.
* `System.Descends`: the replacements of replacements.
* `System.relaunch_takes_over`: each of them has the same settings, finds the descriptor for its
  address and does not bind it.
-/

namespace Handoff

/-! ## Settings -/

/-- The settings that a program reads from its `args` and its `env`. -/
def Process.settings (p : Process) : Except CommandLine.Stop Config :=
  match CommandLine.parse p.args with
  | .error stop => .error stop
  | .ok line => .ok ((Config.ofEnvironment p.env).override line)

/-- `q` has the arguments of `p`, and the variables of `p` up to the descriptor. -/
structure Process.Repeats (q p : Process) : Prop where
  args_eq : q.args = p.args
  /-- All variables but one are the same, readable or not. -/
  get?_eq : ∀ name : OsText, name ≠ listenerVariable → q.env.get? name = p.env.get? name

/-- Settings do not depend on `listenerVariable`. -/
theorem Config.ofEnvironment_congr {e e' : Environment}
    (h : ∀ name : OsText, name ≠ listenerVariable → e'.get? name = e.get? name) :
    ofEnvironment e' = ofEnvironment e := by
  have haddr : e'.getText? addrVariable = e.getText? addrVariable := by
    rw [Environment.getText?, h addrVariable (by decide), Environment.getText?]
  have hdrain : e'.getText? drainTimeoutVariable = e.getText? drainTimeoutVariable := by
    rw [Environment.getText?, h drainTimeoutVariable (by decide), Environment.getText?]
  unfold ofEnvironment readSeconds?
  rw [haddr, hdrain]

namespace Process

variable {p q r : Process}

theorem Repeats.refl (p : Process) : p.Repeats p := ⟨rfl, fun _ _ => rfl⟩

theorem Repeats.trans (h : r.Repeats q) (h' : q.Repeats p) : r.Repeats p :=
  ⟨h.args_eq.trans h'.args_eq, fun name hn => (h.get?_eq name hn).trans (h'.get?_eq name hn)⟩

/-- So a process that `Repeats` another one has the same settings. -/
theorem Repeats.settings_eq (h : q.Repeats p) : q.settings = p.settings := by
  unfold settings
  rw [h.args_eq, Config.ofEnvironment_congr h.get?_eq]

end Process

namespace System

variable {s s' v w x : System}

/-! ## What a server passes on -/

/-- `acquire` changes the descriptor at most. -/
theorem repeats_acquire (v : System) (address : String) :
    (v.acquire address).state.self.Repeats v.self := by
  refine ⟨by rw [self_acquire], fun name hn => ?_⟩
  rw [env_acquire]
  split
  · exact Environment.get?_unset_of_ne _ hn
  · rfl

/-- A server that has started serves the address of its settings, and its process `Repeats` what it
was at the start. -/
theorem of_startServer {i : Instance} {events : List Event}
    (h : v.startServer = ⟨.ok i, s, events⟩) :
    v.self.settings = .ok i.config ∧ s.self.Repeats v.self ∧
      i.coordinator.address = i.config.addr := by
  unfold startServer at h
  unfold Process.settings
  cases hline : CommandLine.parse v.self.args with
  | error stop => simp [hline] at h
  | ok line =>
    simp only [hline] at h ⊢
    -- From here on it does not matter where the settings come from.
    generalize (Config.ofEnvironment v.self.env).override line = config at h ⊢
    have hacquire := repeats_acquire v config.addr
    cases hl : (v.acquire config.addr).result with
    | error e => simp [hl] at h
    | ok l =>
      simp only [hl, Outcome.mk.injEq] at h
      obtain ⟨hi, hs, -⟩ := h
      obtain ⟨hconfig, hc, -, duplicate, hclone, -⟩ :=
        Service.of_serve (show (v.acquire config.addr).state.serve config l = ⟨.ok i, s, _⟩ by
          rw [← hi, ← hs])
      refine ⟨by rw [hconfig], ?_, by rw [hc, hconfig]; rfl⟩
      unfold Listener.tryClone at hclone
      split at hclone
      · cases hclone
      · cases hclone
        exact ⟨hacquire.args_eq, hacquire.get?_eq⟩

/-- A child `w.self` is launched with the arguments and variables of its parent and the descriptor
`d`. -/
theorem of_spawnExported_self {address : String} {d : Descriptor} {handle : Int} {child : Child}
    {events : List Event}
    (h : v.spawnExported address d handle = ⟨.ok child, v.add w.self, events⟩) :
    w.self.args = v.self.args ∧ w.self.env = v.self.env.set listenerVariable d.encode := by
  obtain ⟨program, plan, p, -, hplan, hp, -, hadd⟩ := of_spawnExported h
  have hself : w.self = p := (List.cons.inj (congrArg others hadd)).1
  obtain ⟨dir, -, rfl⟩ := SpawnPlan.ofProgram_eq_ok.mp hplan
  obtain ⟨t, -, -, henv, hargs, -, -⟩ := SpawnPlan.of_child hp
  rw [hself]
  exact ⟨hargs, henv⟩

/-! ## Generations -/

/-- The process of `v` starts its server, which comes, after any interleaving of steps, to a reload,
and the launch in it succeeds. The launched process runs in `w`, whatever system there is then. -/
inductive Begets (v w : System) : Prop
  | launch {id : Nat} {i : Instance} {s : System} {x : Service} {ms : List Mark}
      {c : Coordinator} {retire : Bool} {d : Descriptor} {handle : Int} {child : Child}
      {events events' : List Event} : v.startServer = ⟨.ok i, s, events⟩ →
      Service.Run id (.ofInstance s 0 i) ms x → x.stage = .exported c retire d handle →
      x.system.spawnExported c.address d handle = ⟨.ok child, x.system.add w.self, events'⟩ →
      Begets v w

/-- The process of the last system descends from that of `s` over a number of generations. -/
inductive Descends (s : System) : Nat → System → Prop
  | refl : Descends s 0 s
  | child {n : Nat} {v w : System} : Descends s n v → Begets v w → Descends s (n + 1) w

/-- **Step.** A replacement `Repeats` its parent, and has the descriptor for the address in the
settings of its parent. -/
theorem Begets.repeats (h : Begets v w) :
    w.self.Repeats v.self ∧ ∃ config name, v.self.settings = .ok config ∧
      w.self.env.get? listenerVariable =
        some (OsText.ofString (Descriptor.ofListener config.addr name).encode) := by
  obtain ⟨hstart, hrun, hstage, hspawn⟩ := h
  rename_i id i s x ms c retire d handle child events events'
  obtain ⟨hsettings, hrepeats, haddress⟩ := of_startServer hstart
  obtain ⟨hargs, henv⟩ := of_spawnExported_self hspawn
  have hself := hrun.self_eq.1
  have hsuits : x.stage.Suits i.config.addr := hrun.suits haddress
  rw [hstage] at hsuits
  obtain ⟨-, -, name, rfl⟩ := hsuits
  -- Between the start and the launch the server has changed no more of its process than the fds.
  have hlaunch : w.self.Repeats s.self := by
    refine ⟨?_, fun other hn => ?_⟩
    · rw [hargs, hself]
      rfl
    · rw [henv, Environment.get?_set_of_ne _ _ hn, hself]
      rfl
  refine ⟨hlaunch.trans hrepeats, i.config, name, hsettings, ?_⟩
  rw [henv, Environment.get?_set_self]

/-- **Run.** So all descendants have the same arguments, variables and settings (`Repeats`), by
induction on `Descends`. -/
theorem Descends.repeats {n : Nat} (h : Descends s n v) : v.self.Repeats s.self := by
  induction h with
  | refl => exact .refl _
  | child _ hb ih => exact hb.repeats.1.trans ih

/-- With a descriptor `d` for `address` a process takes over the slot or fails for it, and makes no
socket. -/
theorem acquire_of_usableDescriptor {address : String} {d : Descriptor} {events : List Event}
    (h : usableDescriptor address (v.self.env.getText? listenerVariable) = (some d, events)) :
    v.wouldBind address = false ∧ (v.acquire address).result = v.inherit (.parse address) d ∧
      (v.acquire address).state.sockets = v.sockets := by
  have hbind : v.wouldBind address = false := by
    unfold wouldBind
    rw [h]
    rfl
  refine ⟨hbind, ?_, acquire_of_not_wouldBind hbind⟩
  rw [result_acquire]
  unfold acquireFrom
  rw [h]
  cases hi : v.inherit (.parse address) d with
  | error e => simp only [hi]
  | ok l => simp only [hi]

/-- **Relaunch.** The process of `v` descends from that of `s` over any number of generations and
launches one more replacement, that of `w`, be it that the settings come from arguments, variables
or defaults. The child has the arguments of its parent, and the variables of its parent with a new
descriptor `d`. Both read the same `config`, which is that of the first process. `d` is for the
address in it, and for the `listenerSlot`, so the child takes over that slot or fails for it, and
does not bind. -/
theorem relaunch_takes_over {n : Nat} (hd : Descends s n v) (hb : Begets v w) :
    ∃ config d, (s.self.settings = .ok config ∧ v.self.settings = .ok config ∧
        w.self.settings = .ok config) ∧
      (w.self.args = v.self.args ∧ w.self.args = s.self.args) ∧
      (∀ name : OsText, w.self.env.get? name =
        if name = listenerVariable then some (OsText.ofString d.encode)
        else v.self.env.get? name) ∧
      (∀ name : OsText, name ≠ listenerVariable →
        w.self.env.get? name = s.self.env.get? name) ∧
      d.address = config.addr ∧ d.slot = listenerSlot ∧
      usableDescriptor config.addr (w.self.env.getText? listenerVariable) = (some d, []) ∧
      w.wouldBind config.addr = false ∧
      (w.acquire config.addr).result = w.inherit (.parse config.addr) d ∧
      (w.acquire config.addr).state.sockets = w.sockets := by
  obtain ⟨hstep, config, name, hsettings, hvar⟩ := hb.repeats
  -- The child repeats its parent in all but the descriptor, and so does each ancestor.
  have hv := hd.repeats
  have hw := hstep.trans hv
  let d := Descriptor.ofListener config.addr name
  have htext : w.self.env.getText? listenerVariable = some d.encode := by
    rw [Environment.getText?, hvar, Option.bind_some, OsText.toString?_ofString]
  have husable : usableDescriptor config.addr (w.self.env.getText? listenerVariable) =
      (some d, []) := by
    rw [htext]
    exact usableDescriptor_matching (Descriptor.decode_encode_ofListener config.addr name) rfl
  refine ⟨config, d, ⟨?_, hsettings, ?_⟩, ⟨hstep.args_eq, hw.args_eq⟩, fun other => ?_, hw.get?_eq,
    rfl, rfl, husable, acquire_of_usableDescriptor husable⟩
  · rw [← hv.settings_eq, hsettings]
  · rw [hstep.settings_eq, hsettings]
  · split
    · rename_i heq
      rw [heq]
      exact hvar
    · rename_i hne
      exact hstep.get?_eq other hne

/-- `idle` with an argument that says to serve a Unix socket. -/
def told : System :=
  { idle with self := { idle.self with args := [OsText.ofString "--addr=/s"] } }

/-- The server of `told` has bound the path and exported the socket. -/
def toldExported : System := (Listener.exportAs ⟨.unix, 3⟩ told.startServer.state "/s").2

/-- That process, told to launch its replacement. -/
def toldLaunch : Outcome System SpawnError Child :=
  toldExported.spawnExported "/s" (.ofListener "/s" "unix:/s") exportFloor

/-- That replacement takes the socket over. -/
theorem relaunch_takes_over_unix :
    ∃ w config, Begets told w ∧ w.self.settings = .ok config ∧ config.addr = "/s" ∧
      w.wouldBind "/s" = false := by
  let c : Coordinator := .ofListener "/s" ⟨.unix, 3⟩
  let i : Instance :=
    ⟨⟨"/s", .ofSeconds 30⟩, c, some ⟨.unix, 4⟩, (EchoServer.start (EchoServer.labelOf 1)).1⟩
  let s := told.startServer.state
  have hstart : told.startServer = ⟨.ok i, s, told.startServer.events⟩ := by rfl
  have hexport : Listener.exportAs ⟨.unix, 3⟩ s c.address =
      (.ok (.ofListener "/s" "unix:/s", exportFloor), toldExported) := by rfl
  have hstep : Service.Step 0 (.ofInstance s 0 i) []
      ⟨toldExported, i.config, .exported c true _ _, i.acceptor, i.echo, 0⟩ :=
    .work (.move (.exportOk true rfl rfl hexport))
  have hok : toldLaunch.result = .ok ⟨2, true, none⟩ := by decide
  have hspawn : toldLaunch = ⟨.ok ⟨2, true, none⟩, toldLaunch.state, toldLaunch.events⟩ :=
    hok ▸ rfl
  obtain ⟨-, -, p, -, -, -, -, hadd⟩ := of_spawnExported hspawn
  rw [hadd] at hspawn
  let w : System := { toldLaunch.state with self := p }
  have hbegets : Begets told w := .launch hstart hstep.run rfl hspawn
  obtain ⟨config, d, ⟨hfirst, -, hsettings⟩, -, -, -, -, -, -, hbind, -⟩ :=
    relaunch_takes_over .refl hbegets
  have hconfig : config = i.config := by
    rw [(of_startServer hstart).1] at hfirst
    exact (Except.ok.inj hfirst).symm
  rw [hconfig] at hsettings hbind
  exact ⟨w, i.config, hbegets, hsettings, rfl, hbind⟩

end System

end Handoff
