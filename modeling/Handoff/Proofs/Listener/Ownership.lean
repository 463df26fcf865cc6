import Handoff.Proofs.Acquire.Consumption
import Handoff.Proofs.Export
import Handoff.Proofs.System.Bind

/-!
# Who owns an fd

A process owns fds through its listeners and through the duplicates that it exports. Whatever it
opens itself gets a free number, but a slot is taken over by a number that was handed to it. So an
fd has one owner as long as no slot is taken over that is owned already.

* `Owned`, `Holder`: a process with what it owns.
* `FdTable.Change`, `Holder.Use.change`: what the operations do to the fds.
* `Holder.Step`, `Holder.Run`: the operations and acquisitions of a process, in any order.
* `Holder.Sound`, `Holder.Sound.step`: what every step keeps.
* `Holder.one_owner`: when every fd has one owner.
* `Holder.two_owners`: when it has not.
-/

namespace Handoff

/-! ## What acquisitions do to the fds -/

namespace System

variable {s : System} {address : String} {metadata : Option String} {l : Listener}

/-- The slot of the descriptor in `self.env`, if there is one that can be read. -/
def named? (s : System) : Option Int :=
  match s.self.env.getText? listenerVariable with
  | none => none
  | some text =>
    match Descriptor.decode text with
    | .error _ => none
    | .ok d => some d.slot

theorem named?_congr {s' : System} (h : s'.self.env = s.self.env) : s'.named? = s.named? := by
  unfold named?
  rw [h]

theorem bindFresh_error {e : AcquireError} (h : (s.bindFresh address).result = .error e) :
    (s.bindFresh address).state = s := by
  unfold bindFresh at h ⊢
  cases hb : Listener.bind s (.parse address) with
  | error e' => rfl
  | ok x => simp [hb] at h

theorem bindFresh_ok (h : (s.bindFresh address).result = .ok l) :
    l.fd = s.fds.lowestFree 0 ∧
      (s.bindFresh address).state.fds = s.fds.insert l.fd ⟨.socket s.sockets.length, true⟩ := by
  unfold bindFresh Listener.bind at h ⊢
  cases hb : s.bind (.parse address) with
  | error e => simp [hb] at h
  | ok x =>
    simp only [hb, Except.ok.injEq] at h
    subst h
    exact fds_of_bind hb

/-- An `acquireFrom` that fails changes nothing. -/
theorem acquireFrom_error {e : AcquireError}
    (h : (s.acquireFrom address metadata).result = .error e) :
    (s.acquireFrom address metadata).state = s := by
  unfold acquireFrom at h ⊢
  split
  · rename_i events hu
    simp only [hu] at h
    exact bindFresh_error h
  · split <;> rfl

/-- One that succeeds takes over the slot of a descriptor, which is open, or opens a free fd. -/
theorem acquireFrom_ok (h : (s.acquireFrom address metadata).result = .ok l) :
    (∃ text d, metadata = some text ∧ Descriptor.decode text = .ok d ∧ l.fd = d.slot ∧
      s.fds.isOpen l.fd = true ∧ (s.acquireFrom address metadata).state = s) ∨
    (l.fd = s.fds.lowestFree 0 ∧ (s.acquireFrom address metadata).state.fds =
      s.fds.insert l.fd ⟨.socket s.sockets.length, true⟩) := by
  unfold acquireFrom usableDescriptor at h ⊢
  cases metadata with
  | none => exact .inr (bindFresh_ok h)
  | some text =>
    cases hd : Descriptor.decode text with
    | error e =>
      simp only [hd] at h ⊢
      exact .inr (bindFresh_ok h)
    | ok d =>
      by_cases hm : d.Matches address
      · simp only [hd, hm, if_true, inherit] at h ⊢
        cases hu : s.usability (.parse address) d.slot with
        | error r => simp [hu] at h
        | ok u =>
          simp only [hu, Except.ok.injEq] at h ⊢
          subst h
          obtain ⟨id, hf, -⟩ := usability_eq_ok_iff.mp hu
          exact .inl ⟨text, d, rfl, hd, rfl, FdTable.isOpen_iff.mpr ⟨_, hf⟩, trivial⟩
      · simp only [hd, hm, if_false] at h ⊢
        exact .inr (bindFresh_ok h)

theorem acquire_error {e : AcquireError} (h : (s.acquire address).result = .error e) :
    (s.acquire address).state = s := by
  rw [result_acquire] at h
  unfold acquire
  simp only [h]
  exact acquireFrom_error h

theorem fds_acquire (s : System) (address : String) :
    (s.acquire address).state.fds =
      (s.acquireFrom address (s.self.env.getText? listenerVariable)).state.fds := by
  unfold acquire
  simp only
  split <;> rfl

/-- With the descriptor of the environment, it is the slot `named?` that is taken over. Behind a
success no slot is named. -/
theorem acquire_ok (h : (s.acquire address).result = .ok l) :
    (s.acquire address).state.named? = none ∧
    (s.named? = some l.fd ∧ s.fds.isOpen l.fd = true ∧ (s.acquire address).state.fds = s.fds ∨
      l.fd = s.fds.lowestFree 0 ∧ (s.acquire address).state.fds =
        s.fds.insert l.fd ⟨.socket s.sockets.length, true⟩) := by
  have hnone : (s.acquire address).state.named? = none := by
    have hseen := getText?_acquire s address
    rw [h] at hseen
    unfold named?
    rw [hseen]
    rfl
  rw [fds_acquire]
  rw [result_acquire] at h
  refine ⟨hnone, (acquireFrom_ok h).imp_left ?_⟩
  rintro ⟨text, d, htext, hd, hfd, hopen, hs⟩
  refine ⟨?_, hopen, by rw [hs]⟩
  unfold named?
  rw [htext]
  simp [hd, hfd]

end System

/-! ## What the operations do to the fds -/

/-- What a process owns an fd by. -/
inductive Owned where
  | listener (l : Listener)
  /-- An exported duplicate. -/
  | exported (fd : Int)
  deriving DecidableEq, Repr

def Owned.fd : Owned → Int
  | .listener l => l.fd
  | .exported fd => fd

/-- What happens to the table `t` and to the fds `owned` of it: a free fd is opened and owned, one
that is owned is closed and given up, or nothing. -/
inductive FdTable.Change (t : FdTable) (owned : List Int) : Option Int → FdTable → List Int → Prop
  /-- A free fd is opened. It closes when a program is executed. -/
  | opens {fd : Int} {f : File} : 0 ≤ fd → t.get? fd = none →
      Change t owned (some fd) (t.insert fd ⟨f, true⟩) (fd :: owned)
  | closes {before after : List Int} {fd : Int} : owned = before ++ fd :: after →
      Change t owned none (t.erase fd) (before ++ after)
  | stays : Change t owned none t owned

namespace FdTable.Change

variable {t t' : FdTable} {owned owned' : List Int} {opened : Option Int} {k : Int}

/-- What is opened gets the lowest free number, from some `floor` up. -/
theorem opens_lowestFree {fd floor : Int} {f : File} (hfloor : 0 ≤ floor)
    (hfd : fd = t.lowestFree floor) :
    t.Change owned (some fd) (t.insert fd ⟨f, true⟩) (fd :: owned) := by
  have hle := t.le_lowestFree floor
  refine .opens (by omega) ?_
  rw [hfd]
  exact get?_lowestFree _ _

/-- An `fd` that is given up is owned by nobody any more. -/
theorem ne_of_split (hn : owned.Nodup) {before after : List Int} {fd : Int}
    (hsplit : owned = before ++ fd :: after) : ∀ k ∈ before ++ after, k ≠ fd := by
  rw [hsplit] at hn
  have hfd := (List.nodup_cons.mp (List.perm_middle.nodup_iff.mp hn)).1
  rintro k hk rfl
  exact hfd hk

theorem sublist_of_split {before after : List Int} {fd : Int}
    (hsplit : owned = before ++ fd :: after) : (before ++ after).Sublist owned := by
  rw [hsplit]
  exact List.Sublist.append (List.Sublist.refl _) (List.sublist_cons_self _ _)

/-- What is `opened` was not open in `t`. -/
theorem free (hc : t.Change owned opened t' owned') :
    ∀ fd ∈ opened, 0 ≤ fd ∧ t.get? fd = none := by
  intro fd hfd
  cases hc with
  | opens hle hfree => cases hfd; exact ⟨hle, hfree⟩
  | closes | stays => cases hfd

/-- What is `owned'` was owned before, or it is what was opened. -/
theorem mem_or_opened (hc : t.Change owned opened t' owned') (hk : k ∈ owned') :
    k ∈ owned ∨ k ∈ opened := by
  cases hc with
  | opens =>
    rcases List.mem_cons.mp hk with rfl | hk
    · exact .inr rfl
    · exact .inl hk
  | closes hsplit => exact .inl ((sublist_of_split hsplit).subset hk)
  | stays => exact .inl hk

/-- What is open in `t` and owned by nobody stays as it is. -/
theorem get?_of_not_mem (hc : t.Change owned opened t' owned') (hk : k ∉ owned)
    (ho : t.isOpen k = true) : t'.get? k = t.get? k := by
  cases hc with
  | opens _ hfree => exact get?_insert_of_ne _ _ (ne_of_isOpen hfree ho)
  | closes hsplit =>
    apply get?_erase_of_ne
    rintro rfl
    exact hk (by simp [hsplit])
  | stays => rfl

theorem isOpen_of_not_mem (hc : t.Change owned opened t' owned') (hk : k ∉ owned)
    (ho : t.isOpen k = true) : t'.isOpen k = true := by
  rw [isOpen, hc.get?_of_not_mem hk ho]
  exact ho

/-- **Change.** As long as every fd that is owned is open (`ho`) and has one owner (`hn`), it stays
so. -/
theorem keeps_owners (hc : t.Change owned opened t' owned') (hn : owned.Nodup)
    (ho : ∀ fd ∈ owned, t.isOpen fd = true) :
    owned'.Nodup ∧ ∀ fd ∈ owned', t'.isOpen fd = true := by
  cases hc with
  | stays => exact ⟨hn, ho⟩
  -- A new fd was free, so it is none of the `owned`.
  | @opens fd f _ hfree =>
    refine ⟨List.nodup_cons.mpr ⟨fun hfd => ne_of_isOpen hfree (ho fd hfd) rfl, hn⟩, ?_⟩
    intro k hk
    rcases List.mem_cons.mp hk with rfl | hk
    · exact isOpen_insert_self _ _ _
    · exact isOpen_insert _ _ (ho k hk)
  | closes hsplit =>
    refine ⟨hn.sublist (sublist_of_split hsplit), fun k hk => ?_⟩
    rw [isOpen_erase_of_ne _ (ne_of_split hn hsplit k hk)]
    exact ho k ((sublist_of_split hsplit).subset hk)

end FdTable.Change

/-- A process with what it owns. -/
structure Holder where
  system : System
  owned : List Owned

namespace Holder

def fds (h : Holder) : List Int := h.owned.map Owned.fd

/-- An operation on what a process owns, with the fd that it opens if it opens one. It may fail. -/
inductive Use (h : Holder) : Option Int → Holder → Prop
  | bound {a : Address} {l : Listener} {s : System} : Listener.bind h.system a = .ok (l, s) →
      Use h (some l.fd) ⟨s, .listener l :: h.owned⟩
  | bindFailed {a : Address} {e : IoError} : Listener.bind h.system a = .error e → Use h none h
  | cloned {l l' : Listener} {s : System} : .listener l ∈ h.owned →
      l.tryClone h.system = .ok (l', s) → Use h (some l'.fd) ⟨s, .listener l' :: h.owned⟩
  | cloneFailed {l : Listener} {e : IoError} : .listener l ∈ h.owned →
      l.tryClone h.system = .error e → Use h none h
  | exported {l : Listener} {address : String} {d : Descriptor} {handle : Int} {s : System} :
      .listener l ∈ h.owned → l.exportAs h.system address = (.ok (d, handle), s) →
      Use h (some handle) ⟨s, .exported handle :: h.owned⟩
  | exportFailed {l : Listener} {address : String} {e : ExportError} {s : System} :
      .listener l ∈ h.owned → l.exportAs h.system address = (.error e, s) → Use h none ⟨s, h.owned⟩
  /-- A listener is closed, whatever is reported of that. -/
  | closed {before after : List Owned} {l : Listener} : h.owned = before ++ .listener l :: after →
      Use h none ⟨(l.close h.system).2, before ++ after⟩
  | dropped {before after : List Owned} {o : Owned} : h.owned = before ++ o :: after →
      Use h none ⟨h.system.drop o.fd, before ++ after⟩

end Holder

namespace Holder

variable {h g : Holder} {opened : Option Int}

theorem fds_split {before after : List Owned} {o : Owned} (ho : h.owned = before ++ o :: after) :
    h.fds = before.map Owned.fd ++ o.fd :: after.map Owned.fd := by
  simp [fds, ho]

/-- **Operations.** Each `Use` opens a free fd, closes one that is owned, or does nothing to the
fds. The variables stay. -/
theorem Use.change (hu : h.Use opened g) :
    h.system.fds.Change h.fds opened g.system.fds g.fds ∧
      g.system.self.env = h.system.self.env := by
  cases hu with
  | @bound a l s hb =>
    cases hs : h.system.bind a with
    | error e => simp [Listener.bind, hs] at hb
    | ok x =>
      simp only [Listener.bind, hs, Except.ok.injEq, Prod.mk.injEq] at hb
      obtain ⟨rfl, rfl⟩ := hb
      obtain ⟨hfd, ht⟩ := System.fds_of_bind hs
      refine ⟨?_, by rw [System.self_bind hs]⟩
      simp only [ht]
      exact .opens_lowestFree (by decide) hfd
  | @cloned l l' s hl hc =>
    unfold Listener.tryClone at hc
    cases hd : h.system.fds.dupAbove l.fd Listener.cloneFloor with
    | error e => simp [hd] at hc
    | ok x =>
      obtain ⟨new, t⟩ := x
      simp only [hd, Except.ok.injEq, Prod.mk.injEq] at hc
      obtain ⟨rfl, rfl⟩ := hc
      obtain ⟨f, -, hnew, rfl⟩ := FdTable.dupAbove_eq_ok.mp hd
      exact ⟨.opens_lowestFree (by decide) hnew, rfl⟩
  | exported hl hx =>
    obtain ⟨-, f, -, hnew, rfl, -⟩ := Listener.exportAs_eq_ok.mp hx
    exact ⟨.opens_lowestFree (by decide) hnew, rfl⟩
  | exportFailed hl hx =>
    cases Listener.exportAs_eq_error hx
    exact ⟨.stays, rfl⟩
  | bindFailed | cloneFailed => exact ⟨.stays, rfl⟩
  | @closed before after l ho =>
    rw [l.state_close]
    refine ⟨?_, rfl⟩
    simp only [fds, List.map_append]
    exact .closes (fds_split ho)
  | @dropped before after o ho =>
    refine ⟨?_, rfl⟩
    simp only [fds, List.map_append]
    exact .closes (fds_split ho)

/-! ## Runs -/

/-- The process after the acquisition `o`. If it did not fail, it owns the listener. -/
def acquired (h : Holder) (o : Outcome System AcquireError Listener) : Holder :=
  ⟨o.state, match o.result with
    | .ok l => .listener l :: h.owned
    | .error _ => h.owned⟩

/-- An acquisition with the descriptor of the environment. -/
def acquire (h : Holder) (address : String) : Holder := h.acquired (h.system.acquire address)

/-- An fd that an operation opens, with the slot that the environment names at that moment. -/
structure Opening where
  /-- The slot that a later acquisition may take over. -/
  named : Option Int
  fd : Int

/-- A step of a process, with what an operation opens in it. -/
inductive Step (h : Holder) : List Opening → Holder → Prop
  | use {opened : Option Int} {g : Holder} : h.Use opened g →
      Step h (opened.toList.map fun fd => ⟨h.system.named?, fd⟩) g
  | acquire (address : String) : Step h [] (h.acquire address)

/-- Any number of `Step`s, with all that operations open in them. -/
inductive Run (start : Holder) : List Opening → Holder → Prop
  | start : Run start [] start
  | step {os os' : List Opening} {h g : Holder} : Run start os h → h.Step os' g →
      Run start (os ++ os') g

/-- Every fd that is owned is open and has one owner, and no slot can be taken over that has one. -/
structure Sound (h : Holder) : Prop where
  nodup : h.fds.Nodup
  isOpen : ∀ fd ∈ h.fds, h.system.fds.isOpen fd = true
  /-- The slot that the environment names is not owned. -/
  named : ∀ slot, h.system.named? = some slot → slot ∉ h.fds

/-- The slot that the environment names is open. -/
def Awaits (h : Holder) : Prop :=
  ∀ slot, h.system.named? = some slot → h.system.fds.isOpen slot = true

theorem acquired_of_ok {o : Outcome System AcquireError Listener} {l : Listener}
    (hr : o.result = .ok l) : h.acquired o = ⟨o.state, .listener l :: h.owned⟩ := by
  simp [acquired, hr]

theorem acquired_of_error {o : Outcome System AcquireError Listener} {e : AcquireError}
    (hr : o.result = .error e) (hs : o.state = h.system) : h.acquired o = h := by
  simp [acquired, hr, hs]

theorem acquire_of_ok {address : String} {l : Listener}
    (hr : (h.system.acquire address).result = .ok l) :
    h.acquire address = ⟨(h.system.acquire address).state, .listener l :: h.owned⟩ :=
  acquired_of_ok hr

theorem acquire_of_error {address : String} {e : AcquireError}
    (hr : (h.system.acquire address).result = .error e) : h.acquire address = h :=
  acquired_of_error hr (System.acquire_error hr)

/-- A `Change` of the fds leaves no fd with two owners. -/
theorem Sound.change (hi : Sound h) (hc : h.system.fds.Change h.fds opened g.system.fds g.fds)
    (hnamed : ∀ slot, g.system.named? = some slot → slot ∉ g.fds) : Sound g := by
  obtain ⟨hn, ho⟩ := hc.keeps_owners hi.nodup hi.isOpen
  exact ⟨hn, ho, hnamed⟩

/-- **Step.** A `Use` keeps every fd with its owner, if it opens no slot that can be taken over
later (`hspares`). -/
theorem Sound.use (hi : Sound h) (hu : h.Use opened g)
    (hspares : ∀ fd ∈ opened, h.system.named? ≠ some fd) : Sound g := by
  obtain ⟨hc, henv⟩ := hu.change
  refine hi.change hc fun slot hslot hmem => ?_
  rw [System.named?_congr henv] at hslot
  rcases hc.mem_or_opened hmem with hmem | hmem
  · exact hi.named slot hslot hmem
  · exact hspares slot hmem hslot

/-- **Step.** So does an `acquire` in any case, for it takes over no slot that is owned. -/
theorem Sound.acquire (hi : Sound h) (address : String) : Sound (h.acquire address) := by
  cases hr : (h.system.acquire address).result with
  | error e => rwa [acquire_of_error hr]
  | ok l =>
    obtain ⟨hnone, hfds⟩ := System.acquire_ok hr
    rw [acquire_of_ok hr]
    have hnamed : ∀ slot, (h.system.acquire address).state.named? = some slot →
        slot ∉ l.fd :: h.fds := by
      intro slot hslot
      rw [hnone] at hslot
      cases hslot
    rcases hfds with ⟨hslot, hopen, ht⟩ | ⟨hfd, ht⟩
    · refine ⟨List.nodup_cons.mpr ⟨hi.named l.fd hslot, hi.nodup⟩, fun k hk => ?_, hnamed⟩
      simp only [ht]
      rcases List.mem_cons.mp hk with rfl | hk
      · exact hopen
      · exact hi.isOpen k hk
    · have hc : h.system.fds.Change h.fds (some l.fd) (h.system.acquire address).state.fds
          (l.fd :: h.fds) := by
        rw [ht]
        exact .opens_lowestFree (by decide) hfd
      exact hi.change hc hnamed

theorem Sound.step {os : List Opening} (hi : Sound h) (hs : h.Step os g)
    (hspares : ∀ o ∈ os, o.named ≠ some o.fd) : Sound g := by
  cases hs with
  | acquire address => exact hi.acquire address
  | @use opened _ hu =>
    refine hi.use hu fun fd hfd => ?_
    exact hspares ⟨h.system.named?, fd⟩ (by simpa using hfd)

/-- A slot that waits to be taken over is open, so nothing is opened there, and it stays open until
it is taken over (`Awaits g`). -/
theorem Awaits.step {os : List Opening} (hw : Awaits h) (hi : Sound h) (hs : h.Step os g) :
    (∀ o ∈ os, o.named ≠ some o.fd) ∧ Awaits g := by
  cases hs with
  | acquire address =>
    refine ⟨by simp, ?_⟩
    cases hr : (h.system.acquire address).result with
    | error e => rwa [acquire_of_error hr]
    | ok l =>
      intro slot hslot
      rw [acquire_of_ok hr, (System.acquire_ok hr).1] at hslot
      cases hslot
  -- An operation closes only what is owned, and what waits is not.
  | @use opened _ hu =>
    obtain ⟨hc, henv⟩ := hu.change
    refine ⟨fun o ho hnamed => ?_, fun slot hslot => ?_⟩
    · obtain ⟨fd, hfd, rfl⟩ := List.mem_map.mp ho
      exact FdTable.ne_of_isOpen (hc.free fd (by simpa using hfd)).2 (hw fd hnamed) rfl
    · rw [System.named?_congr henv] at hslot
      exact hc.isOpen_of_not_mem (hi.named slot hslot) (hw slot hslot)

/-- **Run.** Every fd keeps its owner, if no operation opens a slot that can be taken over later
(`hspares`). -/
theorem Run.sound {start : Holder} {os : List Opening} (hr : start.Run os h) (hi : Sound start)
    (hspares : ∀ o ∈ os, o.named ≠ some o.fd) : Sound h := by
  induction hr with
  | start => exact hi
  | step _ hs ih =>
    have hbefore := ih fun o ho => hspares o (List.mem_append_left _ ho)
    exact hbefore.step hs fun o ho => hspares o (List.mem_append_right _ ho)

/-- **Run.** No operation does, as long as that slot is open (`Awaits`). -/
theorem Run.spares {start : Holder} {os : List Opening} (hr : start.Run os h) (hi : Sound start)
    (hw : Awaits start) : (∀ o ∈ os, o.named ≠ some o.fd) ∧ Awaits h := by
  induction hr with
  | start => exact ⟨by simp, hw⟩
  | step hr hs ih =>
    obtain ⟨hspares, hw⟩ := ih
    obtain ⟨hstep, hw⟩ := hw.step (hr.sound hi hspares) hs
    refine ⟨fun o ho => ?_, hw⟩
    rcases List.mem_append.mp ho with ho | ho
    · exact hspares o ho
    · exact hstep o ho

/-! ## From the start -/

/-- Every fd has one owner among `h.owned`, so giving up one handle closes an fd that no other one
uses. -/
structure Exclusive (h : Holder) : Prop where
  /-- No two of the process's handles own the same fd. -/
  nodup : h.fds.Nodup
  /-- A handle can be closed, and all others keep their fds and files. -/
  close : ∀ before o after, h.owned = before ++ o :: after →
    ∃ s, h.system.close o.fd = .ok s ∧ ∀ o' ∈ before ++ after,
      o'.fd ≠ o.fd ∧ s.fds.get? o'.fd = h.system.fds.get? o'.fd

theorem Sound.exclusive (hi : Sound h) : Exclusive h := by
  refine ⟨hi.nodup, fun before o after hsplit => ?_⟩
  have hopen := hi.isOpen o.fd (by simp [fds_split hsplit])
  refine ⟨h.system.withFds (h.system.fds.erase o.fd), ?_, fun o' ho' => ?_⟩
  · simp [System.close, FdTable.close, hopen]
  · have hne : o'.fd ≠ o.fd := by
      refine FdTable.Change.ne_of_split hi.nodup (fds_split hsplit) o'.fd ?_
      rw [← List.map_append]
      exact List.mem_map_of_mem ho'
    exact ⟨hne, FdTable.get?_erase_of_ne _ hne⟩

theorem sound_nothing (s : System) : Sound ⟨s, []⟩ := by
  constructor <;> simp [fds]

/-- **One owner.** A process that begins with an acquisition has one owner for every fd, whatever it
does and whatever fails (`hr`), in each of these cases:

* the first acquisition succeeds;
* the slot that its environment names was open at the start;
* no operation opens a slot while the environment names it.

Then each handle that is given up closes an fd that no other handle uses. -/
theorem one_owner {s : System} {address : String} {os : List Opening}
    (hr : (Holder.acquire ⟨s, []⟩ address).Run os h)
    (hcase : (∃ l, (s.acquire address).result = .ok l) ∨
      (∀ slot, s.named? = some slot → s.fds.isOpen slot = true) ∨
      ∀ o ∈ os, o.named ≠ some o.fd) : h.Exclusive := by
  have hi := (sound_nothing s).acquire address
  have hspares : ∀ o ∈ os, o.named ≠ some o.fd := by
    rcases hcase with ⟨l, hl⟩ | hopen | hspares
    · have hw : Awaits (Holder.acquire ⟨s, []⟩ address) := by
        intro slot hslot
        rw [acquire_of_ok (h := ⟨s, []⟩) hl, (System.acquire_ok hl).1] at hslot
        cases hslot
      exact (hr.spares hi hw).1
    · have hw : Awaits (Holder.mk s []) := hopen
      exact (hr.spares hi (hw.step (sound_nothing s) (.acquire address)).2).1
    · exact hspares
  exact (hr.sound hi hspares).exclusive

theorem named?_passed_loopback (s : System) :
    (s.passed System.loopback.encode).named? = some 3 := by
  have hd : Descriptor.decode System.loopback.encode = .ok System.loopback :=
    Descriptor.decode_encode_ofListener _ _
  simp only [System.named?, System.getText?_passed, hd]
  rfl

/-- A slot that cannot be taken over is left alone: the first acquisition fails, and a listener, its
second handle and the end of the first one leave the second handle alone with its fd. -/
theorem one_owner_waiting :
    let s := (System.holdingLoopback 3 false).passed System.loopback.encode
    s.named? = some 3 ∧ ∃ os h, (Holder.acquire ⟨s, []⟩ "127.0.0.1:9000").Run os h ∧
      h.fds = [5] ∧ h.Exclusive := by
  intro s
  have hd : Descriptor.decode System.loopback.encode = .ok System.loopback :=
    Descriptor.decode_encode_ofListener _ _
  have hm : System.loopback.address = "127.0.0.1:9000" := rfl
  have hfail : (s.acquire "127.0.0.1:9000").result =
      .error (.inherit "127.0.0.1:9000" 3 (.invalidInput .notListening)) := by
    rw [System.result_acquire, System.getText?_passed,
      System.acquireFrom_unusable hd hm (r := .notListening) rfl]
    rfl
  have h₀ : (Holder.acquire ⟨s, []⟩ "127.0.0.1:9000").Run [] ⟨s, []⟩ := by
    rw [acquire_of_error (h := ⟨s, []⟩) hfail]
    exact .start
  have h₁ := h₀.step (.use (.bound (a := .unix "/s") (l := ⟨.unix, 4⟩) rfl))
  have h₂ := h₁.step (.use (@Use.cloned _ ⟨.unix, 4⟩ ⟨.unix, 5⟩ _ List.mem_cons_self rfl))
  have h₃ := h₂.step (.use (@Use.closed _ [.listener ⟨.unix, 5⟩] [] ⟨.unix, 4⟩ rfl))
  refine ⟨named?_passed_loopback _, _, _, h₃, rfl, one_owner h₃ (.inr (.inl fun slot hslot => ?_))⟩
  rw [named?_passed_loopback] at hslot
  cases hslot
  rfl

/-- A slot that is closed is opened by a listener of the process itself, and taken over by the next
acquisition: the failed one has left the descriptor in the environment. -/
theorem two_owners :
    let s := System.idle.passed System.loopback.encode
    s.named? = some 3 ∧ s.fds.isOpen 3 = false ∧
      ∃ os h, (Holder.acquire ⟨s, []⟩ "127.0.0.1:9000").Run os h ∧ h.fds = [3, 3] ∧
        ¬ h.Exclusive := by
  intro s
  have hd : Descriptor.decode System.loopback.encode = .ok System.loopback :=
    Descriptor.decode_encode_ofListener _ _
  have hm : System.loopback.address = "127.0.0.1:9000" := rfl
  obtain ⟨s', hbind⟩ : ∃ s', Listener.bind s (.tcp "127.0.0.1:9000") = .ok (⟨.tcp, 3⟩, s') :=
    ⟨_, rfl⟩
  have h₀ : (Holder.acquire ⟨s, []⟩ "127.0.0.1:9000").Run [] ⟨s, []⟩ := by
    rw [acquire_of_error (h := ⟨s, []⟩) System.acquire_slotClosed]
    exact .start
  have hu := Use.bound (h := ⟨s, []⟩) hbind
  have h₂ := (h₀.step (.use hu)).step (.acquire "127.0.0.1:9000")
  have hagain : (s'.acquire "127.0.0.1:9000").result = .ok ⟨.tcp, 3⟩ := by
    have hseen : s'.self.env.getText? listenerVariable = some System.loopback.encode := by
      rw [hu.change.2]
      exact System.getText?_passed _ _
    have husable : s'.Usable (.parse "127.0.0.1:9000") System.loopback.slot := by
      cases hbind
      exact ⟨0, rfl, _, rfl, rfl, rfl, .inl rfl⟩
    rw [System.result_acquire, hseen, System.acquireFrom_usable hd hm husable]
    rfl
  have hfds : (Holder.acquire ⟨s', [.listener ⟨.tcp, 3⟩]⟩ "127.0.0.1:9000").fds = [3, 3] := by
    rw [acquire_of_ok (h := ⟨s', [.listener ⟨.tcp, 3⟩]⟩) hagain]
    rfl
  refine ⟨named?_passed_loopback _, rfl, _, _, h₂, hfds, fun hexclusive => ?_⟩
  have hn := hexclusive.nodup
  rw [hfds] at hn
  simp at hn

end Holder

end Handoff
