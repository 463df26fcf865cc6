import Handoff.Proofs.System.Bind
import Handoff.Proofs.System.Environment

/-!
# When the descriptor in the environment is used up

A listener is acquired with the descriptor that the environment holds, and the variable is removed
afterwards. It is removed only behind a success, and only if its value could be read: a call that
fails leaves the descriptor for the next one.

* `System.self_acquireFrom`: with a given descriptor, nothing of the process changes but its fds.
* `System.env_acquire`: with the descriptor of the environment, the variable is removed or nothing
  changes.
* `Acquisitions`: several calls of one process, with anything in between that leaves its variables.
* `Acquisitions.seen_next`: what the next call sees, given what came before it.
* `System.acquire_consumption`: the same for one call and for all calls of a run.
-/

namespace Handoff

namespace System

variable {s s' : System} {fd : Int}

/-! ## One call -/

theorem self_bindFresh (s : System) (address : String) :
    (s.bindFresh address).state.self =
      { s.self with fds := (s.bindFresh address).state.self.fds } := by
  unfold bindFresh Listener.bind
  cases hb : s.bind (.parse address) with
  | error e => rfl
  | ok x => exact self_bind hb

/-- With a given descriptor, only `self.fds` changes, whatever `acquireFrom` comes to. -/
theorem self_acquireFrom (s : System) (address : String) (metadata : Option String) :
    (s.acquireFrom address metadata).state.self =
      { s.self with fds := (s.acquireFrom address metadata).state.self.fds } := by
  unfold acquireFrom
  split
  · exact self_bindFresh s address
  · split <;> rfl

/-- So no variable of `self.env` changes. -/
theorem env_acquireFrom (s : System) (address : String) (metadata : Option String) :
    (s.acquireFrom address metadata).state.self.env = s.self.env := by
  rw [self_acquireFrom]

/-- With the descriptor of the environment, `acquire` changes at most `self.fds` and `self.env`. -/
theorem self_acquire (s : System) (address : String) :
    (s.acquire address).state.self =
      { s.self with
        fds := (s.acquire address).state.self.fds
        env := (s.acquire address).state.self.env } := by
  have hself := self_acquireFrom s address (s.self.env.getText? listenerVariable)
  unfold acquire
  simp only
  split
  · simp only [withEnv]
    rw [hself]
  · rw [hself]

/-- With the descriptor of the environment, `listenerVariable` is removed behind a success if its
value could be read, and nothing changes otherwise. -/
theorem env_acquire (s : System) (address : String) :
    (s.acquire address).state.self.env =
      if (s.acquire address).result.isOk ∧ (s.self.env.getText? listenerVariable).isSome then
        s.self.env.unset listenerVariable
      else s.self.env := by
  rw [result_acquire]
  have henv := env_acquireFrom s address (s.self.env.getText? listenerVariable)
  unfold acquire
  generalize s.self.env.getText? listenerVariable = metadata at henv ⊢
  cases hr : (s.acquireFrom address metadata).result with
  | error e => simpa [hr, Except.isOk, Except.toBool] using henv
  | ok l =>
    cases metadata with
    | none => simpa [hr] using henv
    | some text => simp [hr, henv, withEnv, Except.isOk, Except.toBool]

/-- After an `acquire` that succeeds, `listenerVariable` has no value that could be read. -/
theorem getText?_acquire (s : System) (address : String) :
    (s.acquire address).state.self.env.getText? listenerVariable =
      if (s.acquire address).result.isOk then none
      else s.self.env.getText? listenerVariable := by
  rw [env_acquire]
  by_cases hok : (s.acquire address).result.isOk = true
  · by_cases hseen : (s.self.env.getText? listenerVariable).isSome = true
    · rw [if_pos ⟨hok, hseen⟩, if_pos hok, Environment.getText?, Environment.get?_unset_self]
      rfl
    · rw [if_neg fun h => hseen h.2, if_pos hok]
      exact Option.not_isSome_iff_eq_none.mp hseen
  · rw [if_neg fun h => hok h.1, if_neg hok]

end System

/-! ## All calls of a process -/

/-- One call of a run: the descriptor text that it saw, and what came of it. -/
structure Acquisition where
  /-- The text in the environment, if there was one that could be read. -/
  seen : Option String
  result : Except AcquireError Listener

/-- Calls of the process that runs in `s`, one after the other. Between them anything may happen
that leaves its variables as they are. -/
inductive Acquisitions (s : System) : List Acquisition → System → Prop
  | start : Acquisitions s [] s
  | acquire {as : List Acquisition} {t : System} (address : String) : Acquisitions s as t →
      Acquisitions s
        (as ++ [⟨t.self.env.getText? listenerVariable, (t.acquire address).result⟩])
        (t.acquire address).state
  /-- Something else happens. -/
  | other {as : List Acquisition} {t t' : System} : Acquisitions s as t →
      t'.self.env = t.self.env → Acquisitions s as t'

namespace Acquisitions

variable {s t : System} {as : List Acquisition}

/-- The next call sees the descriptor of the start unless one of `as` has succeeded. A failed call
takes nothing away, and a value that cannot be read is never seen. -/
theorem seen_next (h : Acquisitions s as t) :
    t.self.env.getText? listenerVariable =
      if ∃ a ∈ as, a.result.isOk then none else s.self.env.getText? listenerVariable := by
  induction h with
  | start => simp
  | other _ henv ih => rw [henv, ih]
  | @acquire as t address _ ih =>
    rw [System.getText?_acquire, ih]
    by_cases hok : (t.acquire address).result.isOk = true <;> simp [hok]

/-- Every call `a` of a run, by what came `before` it. -/
theorem seen_eq (h : Acquisitions s as t) {before after : List Acquisition} {a : Acquisition}
    (hsplit : as = before ++ a :: after) :
    a.seen =
      if ∃ b ∈ before, b.result.isOk then none else s.self.env.getText? listenerVariable := by
  induction h generalizing after with
  | start => simp at hsplit
  | other _ _ ih => exact ih hsplit
  | @acquire as t address h ih =>
    -- The call is the last one, or one of those before it.
    rcases List.eq_nil_or_concat after with rfl | ⟨init, last, rfl⟩
    · obtain ⟨rfl, rfl⟩ := List.append_singleton_inj.mp hsplit
      exact h.seen_next
    · rw [List.concat_eq_append, ← List.cons_append, ← List.append_assoc] at hsplit
      exact ih (List.append_singleton_inj.mp hsplit).1

end Acquisitions

namespace System

/-- **Consumption.** A call removes `listenerVariable` if it succeeds and the value could be read;
it leaves it as it is otherwise, and every other variable always. So all calls of a process up to
and including the first that succeeds see the same descriptor, and no later one does. -/
theorem acquire_consumption (s : System) :
    (∀ (address : String) (name : OsText), (s.acquire address).state.self.env.get? name =
      if name = listenerVariable ∧ (s.acquire address).result.isOk ∧
          (s.self.env.getText? listenerVariable).isSome then none
      else s.self.env.get? name) ∧
    (∀ as t, Acquisitions s as t → ∀ before a after, as = before ++ a :: after →
      a.seen =
        if ∃ b ∈ before, b.result.isOk then none else s.self.env.getText? listenerVariable) := by
  refine ⟨fun address name => ?_, fun as t h before a after hsplit => h.seen_eq hsplit⟩
  rw [env_acquire]
  by_cases hused : (s.acquire address).result.isOk ∧
      (s.self.env.getText? listenerVariable).isSome
  · rw [if_pos hused]
    by_cases hname : name = listenerVariable
    · rw [if_pos ⟨hname, hused⟩, hname, Environment.get?_unset_self]
    · rw [if_neg fun h => hname h.1, Environment.get?_unset_of_ne _ hname]
  · rw [if_neg hused, if_neg fun h => hused h.2]

/-- A process to which `text` was passed in `listenerVariable`. -/
def passed (s : System) (text : OsText) : System :=
  s.withEnv (s.self.env.set listenerVariable text)

theorem getText?_passed (s : System) (text : String) :
    (s.passed text).self.env.getText? listenerVariable = some text :=
  Environment.getText?_set_self _ _ _

/-- A descriptor of slot 3 for a listener on the loopback host. -/
def loopback : Descriptor := .ofListener "127.0.0.1:9000" ""

/-- What comes of `loopback` while the slot is closed. -/
def slotClosed : AcquireError := .inherit "127.0.0.1:9000" 3 (.invalidInput .notSocket)

theorem acquire_slotClosed :
    ((idle.passed loopback.encode).acquire "127.0.0.1:9000").result = .error slotClosed := by
  have hd : Descriptor.decode loopback.encode = .ok loopback :=
    Descriptor.decode_encode_ofListener _ _
  have hm : loopback.address = "127.0.0.1:9000" := rfl
  rw [result_acquire, getText?_passed, acquireFrom_unusable hd hm (r := .notSocket) rfl]
  rfl

/-- A text of the one byte `0xFF`, which starts no character. -/
def illFormed : OsText := .ofBytes [0xFF]

/-- A descriptor whose slot is closed stays behind the failure that it causes, and a value that is
`illFormed` stays behind a success. -/
theorem descriptor_outlives_acquire :
    ((idle.passed loopback.encode).acquire "127.0.0.1:9000").result = .error slotClosed ∧
      ((idle.passed loopback.encode).acquire "127.0.0.1:9000").state.self.env.get?
          listenerVariable = some (.ofString loopback.encode) ∧
    ((idle.passed illFormed).acquire "/s").result = .ok ⟨.unix, 3⟩ ∧
      ((idle.passed illFormed).acquire "/s").state.self.env.get? listenerVariable =
        some illFormed := by
  refine ⟨acquire_slotClosed, ?_, rfl, rfl⟩
  rw [env_acquire, acquire_slotClosed]
  rfl

/-- A first call fails because the slot is closed. Then the process opens a listening socket there,
and the second call takes it over: it saw the same descriptor. The third one sees none. -/
theorem acquire_consumption_retry :
    ∃ seen₁ seen₂ seen₃ r t, Acquisitions (idle.passed loopback.encode)
        [⟨seen₁, .error slotClosed⟩, ⟨seen₂, .ok ⟨.tcp, 3⟩⟩, ⟨seen₃, r⟩] t ∧
      seen₁ = some loopback.encode ∧ seen₂ = some loopback.encode ∧ seen₃ = none := by
  let listening := holdingLoopback 3 true
  have h₁ := (Acquisitions.start (s := idle.passed loopback.encode)).acquire "127.0.0.1:9000"
  rw [acquire_slotClosed] at h₁
  have h₁' : Acquisitions (idle.passed loopback.encode) _ (listening.passed loopback.encode) :=
    h₁.other (by rw [env_acquire, acquire_slotClosed]; rfl)
  have h₂ := h₁'.acquire "127.0.0.1:9000"
  have hok : ((listening.passed loopback.encode).acquire "127.0.0.1:9000").result =
      .ok ⟨.tcp, 3⟩ := by
    have hd : Descriptor.decode loopback.encode = .ok loopback :=
      Descriptor.decode_encode_ofListener _ _
    have hm : loopback.address = "127.0.0.1:9000" := rfl
    have hu : (listening.passed loopback.encode).Usable (.parse "127.0.0.1:9000") loopback.slot :=
      ⟨0, rfl, _, rfl, rfl, rfl, .inl rfl⟩
    rw [result_acquire, getText?_passed, acquireFrom_usable hd hm hu]
    rfl
  rw [hok] at h₂
  have h₃ := h₂.acquire "127.0.0.1:9000"
  have hseen := (acquire_consumption (idle.passed loopback.encode)).2 _ _ h₃
  refine ⟨_, _, _, _, _, h₃, (hseen [] _ _ rfl).trans ?_, (hseen [_] _ _ rfl).trans ?_,
    (hseen [_, _] _ _ rfl).trans ?_⟩
  · simp [getText?_passed]
  · simp [getText?_passed, Except.isOk, Except.toBool]
  · simp [Except.isOk, Except.toBool]

end System

end Handoff
