import Handoff.Proofs.Coordinator.Course
import Handoff.Proofs.Coordinator.Reload

/-!
# What the log of a coordinator tells

No transition is silent, and every line tells the truth: from the lines alone a reader knows where a
coordinator is in its life, whether it holds the listener, and whom it has launched.

* `Scene.lines`, `Scene.Told`: the lines of a call, and what they have to do with it.
* `Scene.told_of_move`: every move is told so.
* `Reading`, `Reading.read`: a reader of the log.
* `Coordinator.readAll_course`: what the reader knows behind a course.
* `Coordinator.log_truthful`: both, for every course, and for the whole log of a process.
-/

namespace Handoff

/-- The lines with one of `messages` that are written for `events`. -/
def Event.lines (messages : List String) (events : List Event) : List Record :=
  (events.map Event.record).filter (·.message ∈ messages)

theorem Event.lines_append (messages : List String) (events more : List Event) :
    lines messages (events ++ more) = lines messages events ++ lines messages more := by
  simp [lines]

theorem Event.lines_flatMap {α : Type} (messages : List String) (as : List α) (f : α → List Event) :
    lines messages (as.flatMap f) = as.flatMap fun a => lines messages (f a) := by
  simp [lines, List.map_flatMap, List.filter_flatMap]

theorem Event.lines_eq_nil {messages : List String} {events : List Event}
    (h : ∀ e ∈ events, e.record.message ∉ messages) : lines messages events = [] := by
  simpa [lines] using h

namespace Invocation

/-- The address of a launch that failed, and why. -/
def failure? : Invocation → Option (String × SpawnError)
  | .spawn address _ (.error e) => some (address, e)
  | _ => none

def closed? : Invocation → Option (Except IoError Unit)
  | .close _ result => some result
  | _ => none

end Invocation

/-- The line that is written when the launch of `child` has succeeded. -/
def Record.forked (retire : Bool) (child : Child) : Record :=
  ⟨.info, "Forked child process", [("pid", .number child.pid), ("retire", .flag retire)]⟩

/-- The line that is written when a launch has failed with `failure`. -/
def Record.reloadFailed (failure : String × SpawnError) : Record :=
  ⟨.error, "Reload failed, keeping current listener",
    [("address", .text failure.1), ("error", .text failure.2.message)]⟩

/-- The line that is written when the listener is closed for a `reason`. -/
def Record.closing (reason name : String) : Except IoError Unit → Record
  | .ok () => ⟨.info, "Closed listener", [("reason", .text reason), ("name", .text name)]⟩
  | .error e =>
    ⟨.error, "Failed to close listener",
      [("reason", .text reason), ("name", .text name), ("error", .text e.message)]⟩

namespace Scene

/-- The `listener` was held before a call and is gone behind it. -/
def LetsGo (x : Scene) : Prop := x.before.listener.isSome ∧ x.after.listener = none

instance (x : Scene) : Decidable x.LetsGo := inferInstanceAs (Decidable (_ ∧ _))

/-- A reload was asked for while serving without a listener. -/
def FindsNothing (x : Scene) : Prop :=
  (x.call = .handle .reloadRetire ∨ x.call = .handle .reloadCoexist) ∧
    x.before.phase = .serving ∧ x.before.listener = none

instance (x : Scene) : Decidable x.FindsNothing := inferInstanceAs (Decidable (_ ∧ _))

/-- The lines with one of `messages` that the coordinator writes in a call. -/
def lines (x : Scene) (messages : List String) : List Record := Event.lines messages x.own

/-- What the lines of a call have to do with it. -/
structure Told (x : Scene) : Prop where
  /-- What is told follows from what the call asks for. -/
  account : ∃ name, x.own = x.toTurn.account name
  /-- No request is handled in silence. -/
  spoken : ∀ request, x.call = .handle request → x.own ≠ []
  /-- Every launch that succeeds has its line, which tells whether this process is to retire. -/
  forked : x.lines ["Forked child process"] =
    x.toTurn.launched.map (.forked (x.call = .handle .reloadRetire))
  /-- Every launch that fails has its line. -/
  failed : x.lines ["Reload failed, keeping current listener"] =
    (x.asked.filterMap Invocation.failure?).map .reloadFailed
  /-- So has every reload that finds no listener. -/
  nothing : x.lines ["No listener to hand off, reload ignored"] =
    if x.FindsNothing then
      [⟨.warn, "No listener to hand off, reload ignored", [("address", .text x.before.address)]⟩]
    else []
  /-- The listener is closed once just when it goes. -/
  closes : (x.asked.filterMap Invocation.closed?).length = if x.LetsGo then 1 else 0
  /-- Then one of two lines tells the reason and how it went. -/
  closed : ∃ name, x.lines ["Closed listener", "Failed to close listener"] =
    (x.asked.filterMap Invocation.closed?).map
      (.closing (if x.Ends then "shutdown" else "retire") name)
  /-- A request after the end is told to be ignored. -/
  late : x.lines ["Already terminated, ignoring signal"] =
    match x.call, x.before.phase with
    | .handle request, .terminated =>
      [⟨.debug, "Already terminated, ignoring signal", [("signal", .text request.display)]⟩]
    | _, _ => []

end Scene

/-- If every request `i` is told in the lines of its kind (`h`), then the lines of some requests are
those of the requests of that kind. -/
theorem flatMap_eq_map_filterMap {α : Type} {lines : Invocation → List Record}
    {kind? : Invocation → Option α} {line : α → Record}
    (h : ∀ i, lines i = (kind? i).toList.map line) (asked : List Invocation) :
    asked.flatMap lines = (asked.filterMap kind?).map line := by
  induction asked with
  | nil => rfl
  | cons i asked ih =>
    rw [List.flatMap_cons, List.filterMap_cons, h, ih]
    cases kind? i <;> rfl

variable {messages : List String} {request : Signal} {name : String}

/-- The lines of a round of polls tell of exits and of polls that fail. -/
theorem message_seen (asked : List Invocation) :
    ∀ e ∈ (asked.flatMap Invocation.seen).filterMap Action.event?,
      e.record.message = "Child process exited" ∨
        e.record.message = "Failed to poll child process" := by
  intro e he
  obtain ⟨a, ha, hreport⟩ := List.mem_filterMap.mp he
  obtain ⟨i, -, hi⟩ := List.mem_flatMap.mp ha
  rcases i with _ | _ | ⟨child, _ | _ | status⟩ <;> simp [Invocation.seen] at hi
  · subst hi
    cases hreport
    exact .inr rfl
  · rcases hi with rfl | rfl
    · cases hreport
    · cases hreport
      exact .inl rfl

/-- Of a `request` nothing else is told than its receipt, what it asks for (`told`) and what it
misses (`missing`). -/
theorem lines_account (c : Coordinator) (asked : List Invocation) (hp : c.phase = .serving)
    (hm : "Signal received" ∉ messages) :
    Event.lines messages (Turn.account name ⟨.handle request, c, asked⟩) =
      asked.flatMap (fun i => Event.lines messages (i.told request name)) ++
        Event.lines messages (c.missing request) := by
  have hreceived : Event.lines messages [.signalReceived request] = [] :=
    Event.lines_eq_nil (by simpa [Event.record] using hm)
  simp only [Turn.account, hp]
  rw [← List.singleton_append, Event.lines_append, Event.lines_append, hreceived,
    Event.lines_flatMap, List.nil_append]

theorem lines_told_forked (i : Invocation) :
    Event.lines ["Forked child process"] (i.told request name) =
      i.launched?.toList.map (.forked (decide (request = .reloadRetire))) := by
  rcases i with ⟨_, _, _ | _⟩ | ⟨_, _ | _⟩ | _ <;>
    simp [Event.lines, Invocation.told, Event.record, Invocation.launched?, Record.forked]

theorem lines_told_failed (i : Invocation) :
    Event.lines ["Reload failed, keeping current listener"] (i.told request name) =
      i.failure?.toList.map .reloadFailed := by
  rcases i with ⟨_, _, _ | _⟩ | ⟨_, _ | _⟩ | _ <;>
    simp [Event.lines, Invocation.told, Event.record, Invocation.failure?, Record.reloadFailed]

theorem lines_told_closed (i : Invocation) :
    Event.lines ["Closed listener", "Failed to close listener"] (i.told request name) =
      i.closed?.toList.map (.closing request.reason.display name) := by
  rcases i with ⟨_, _, _ | _⟩ | ⟨_, _ | _⟩ | _ <;>
    simp [Event.lines, Invocation.told, Event.record, Invocation.closed?, Record.closing]

/-- What a request asks for is told in lines with four messages, so `Event.lines` finds none of
others. -/
theorem lines_told_eq_nil (h : ∀ message ∈ ["Forked child process",
      "Reload failed, keeping current listener", "Closed listener", "Failed to close listener"],
      message ∉ messages) (asked : List Invocation) :
    asked.flatMap (fun i => Event.lines messages (i.told request name)) = [] := by
  simp only [List.forall_mem_cons] at h
  obtain ⟨hforked, hfailed, hclosed, hnot, -⟩ := h
  refine List.flatMap_eq_nil_iff.mpr fun i _ => Event.lines_eq_nil fun e he => ?_
  rcases i with ⟨_, _, _ | _⟩ | ⟨_, _ | _⟩ | _ <;> simp [Invocation.told] at he
  all_goals subst he; assumption

theorem lines_missing_eq_nil (c : Coordinator) (hreleased : "Listener already released" ∉ messages)
    (hnothing : "No listener to hand off, reload ignored" ∉ messages) :
    Event.lines messages (c.missing request) = [] := by
  refine Event.lines_eq_nil fun e he => ?_
  unfold Coordinator.missing at he
  split at he
  · cases he
  · split at he <;> (cases List.mem_singleton.mp he; assumption)

namespace Coordinator.Move

variable {c c' : Coordinator} {asked : List Invocation}

theorem of_terminated (hm : c.Move (.handle request) asked c') (hp : c.phase = .terminated) :
    asked = [] ∧ c' = c := by
  cases hm <;> simp_all

theorem closed_length {k : Call} (hm : c.Move k asked c') :
    (asked.filterMap Invocation.closed?).length =
      if c.listener.isSome ∧ c'.listener = none then 1 else 0 := by
  cases hm with
  | reaped hpolls =>
    rw [filterMap_of_polls hpolls fun _ _ => rfl]
    cases c.listener <;> simp
  | ignored => cases hl : c.listener <;> simp
  | _ => simp_all [Invocation.closed?, List.filterMap_cons]

end Coordinator.Move

namespace Scene

variable {x : Scene}

/-- A round of polls is `Told` in lines of its own. -/
theorem told_of_reap (hk : x.call = .reap)
    (hpolls : ∀ i ∈ x.asked, ∃ child result, i = .poll child result)
    (hcloses : (x.asked.filterMap Invocation.closed?).length = if x.LetsGo then 1 else 0)
    (hown : x.own = x.toTurn.account name) : x.Told := by
  have hlines : ∀ messages, "Child process exited" ∉ messages →
      "Failed to poll child process" ∉ messages → x.lines messages = [] := by
    intro messages hexited hfailed
    refine Event.lines_eq_nil fun e he => ?_
    rw [hown, Turn.account, hk] at he
    rcases message_seen _ e he with h | h <;> rwa [h]
  refine ⟨⟨name, hown⟩, fun request h => ?_, ?_, ?_, ?_, hcloses, ⟨name, ?_⟩, ?_⟩
  · rw [hk] at h
    cases h
  · rw [hlines _ (by simp) (by simp), Turn.launched, filterMap_of_polls hpolls fun _ _ => rfl]
    rfl
  · rw [hlines _ (by simp) (by simp), filterMap_of_polls hpolls fun _ _ => rfl]
    rfl
  · rw [hlines _ (by simp) (by simp), if_neg (by simp [FindsNothing, hk])]
  · rw [hlines _ (by simp) (by simp), filterMap_of_polls hpolls fun _ _ => rfl]
    rfl
  · rw [hlines _ (by simp) (by simp), hk]

/-- A `request` that is ignored is `Told` in one line. -/
theorem told_of_terminated (hk : x.call = .handle request) (hp : x.before.phase = .terminated)
    (hasked : x.asked = [])
    (hcloses : (x.asked.filterMap Invocation.closed?).length = if x.LetsGo then 1 else 0)
    (hown : x.own = x.toTurn.account name) : x.Told := by
  have howned : x.own = [.alreadyTerminated request] := by
    simp [hown, Turn.account, hk, hp]
  refine ⟨⟨name, hown⟩, fun _ _ => by simp [howned], ?_, ?_, ?_, hcloses, ⟨name, ?_⟩, ?_⟩
  · simp [lines, howned, Event.lines, Event.record, Turn.launched, hasked]
  · simp [lines, howned, Event.lines, Event.record, hasked]
  · simp [lines, howned, Event.lines, Event.record, FindsNothing, hp]
  · simp [lines, howned, Event.lines, Event.record, hasked]
  · simp [lines, howned, Event.lines, Event.record, hk, hp]

/-- A `request` that is handled while serving is `Told` in several lines. -/
theorem told_of_serving (hk : x.call = .handle request) (hp : x.before.phase = .serving)
    (hcloses : (x.asked.filterMap Invocation.closed?).length = if x.LetsGo then 1 else 0)
    (hown : x.own = x.toTurn.account name) : x.Told := by
  have hlines : ∀ messages, "Signal received" ∉ messages → x.lines messages =
      x.asked.flatMap (fun i => Event.lines messages (i.told request name)) ++
        Event.lines messages (x.before.missing request) := by
    intro messages hno
    have h : Event.lines messages (Turn.account name ⟨.handle request, x.before, x.asked⟩) = _ :=
      lines_account x.before x.asked hp hno
    rw [lines, hown, ← h, ← hk]
  -- For each kind of line, the other parts of the account have none of it.
  refine ⟨⟨name, hown⟩, fun _ _ => ?_, ?_, ?_, ?_, hcloses, ⟨name, ?_⟩, ?_⟩
  · simp [hown, Turn.account, hk, hp]
  · rw [hlines _ (by simp), lines_missing_eq_nil _ (by simp) (by simp), List.append_nil,
      flatMap_eq_map_filterMap lines_told_forked, hk]
    simp [Turn.launched]
  · rw [hlines _ (by simp), lines_missing_eq_nil _ (by simp) (by simp), List.append_nil,
      flatMap_eq_map_filterMap lines_told_failed]
  · rw [hlines _ (by simp), lines_told_eq_nil (by simp), List.nil_append]
    unfold Coordinator.missing
    cases hl : x.before.listener with
    | some l => simp [Event.lines, FindsNothing, hl]
    | none => cases request <;> simp [Event.lines, Event.record, FindsNothing, hk, hp, hl]
  · rw [hlines _ (by simp), lines_missing_eq_nil _ (by simp) (by simp), List.append_nil,
      flatMap_eq_map_filterMap lines_told_closed]
    have hreason : request.reason.display = if x.Ends then "shutdown" else "retire" := by
      cases request <;> simp [Turn.Ends, hk, Signal.reason, Reason.display]
    rw [hreason]
  · rw [hlines _ (by simp), lines_missing_eq_nil _ (by simp) (by simp), List.append_nil,
      lines_told_eq_nil (by simp), hk, hp]

/-- **Step.** Every `Move` is `Told`. -/
theorem told_of_move (hm : x.before.Move x.call x.asked x.after)
    (hown : x.own = x.toTurn.account name) : x.Told := by
  have hcloses : (x.asked.filterMap Invocation.closed?).length = if x.LetsGo then 1 else 0 :=
    hm.closed_length
  cases hk : x.call with
  | reap =>
    rw [hk] at hm
    exact told_of_reap hk hm.polls_of_reap hcloses hown
  | handle request =>
    rw [hk] at hm
    cases hp : x.before.phase with
    | terminated => exact told_of_terminated hk hp (hm.of_terminated hp).1 hcloses hown
    | serving => exact told_of_serving hk hp hcloses hown

end Scene

/-- Where `p` is false of all that launches report, the events with `p` are those that are reported
outside of launches. -/
theorem Action.filter_reports {as : List Action} {launching : Bool} {p : Event → Bool}
    (h : ∀ e ∈ reports true launching as, p e = false) :
    (as.filterMap event?).filter p = (reports false launching as).filter p := by
  induction as generalizing launching with
  | nil => rfl
  | cons a as ih =>
    cases a with
    | report e =>
      cases launching with
      | false =>
        have hrest : (as.filterMap event?).filter p = (reports false false as).filter p :=
          ih (by simpa [reports] using h)
        simp [event?, reports, List.filter_cons, hrest]
      | true =>
        simp only [reports, if_true, List.forall_mem_cons] at h
        simpa [event?, reports, List.filter_cons, h.1] using ih h.2
    | spawnTried | spawnSucceeded | spawnFailed => exact ih h
    | recorded | cancelled | released | collected => exact ih h

/-! ## Reading the log -/

/-- What a reader of the log knows of a coordinator. -/
structure Reading where
  /-- Where the coordinator is in its life. -/
  phase : Phase
  /-- Whether it holds the listener. -/
  held : Bool
  /-- The numbers of the children that it launched, in order. -/
  pids : List Int
  deriving DecidableEq, Repr

namespace Reading

/-- A reader who knows that a coordinator has just got its listener. -/
def start : Reading := ⟨.serving, true, []⟩

/-- The messages that tell the reader something. -/
def telling : List String :=
  ["Signal received", "Closed listener", "Failed to close listener", "Forked child process"]

def read (r : Reading) (line : Record) : Reading :=
  if line.message = "Signal received" ∧ line.fields.lookup "signal" = some (.text "shutdown") then
    { r with phase := .terminated }
  else if line.message = "Closed listener" ∨ line.message = "Failed to close listener" then
    { r with held := false }
  else if line.message = "Forked child process" then
    match line.fields.lookup "pid" with
    | some (.number pid) => { r with pids := r.pids ++ [pid] }
    | _ => r
  else r

def readAll (r : Reading) (events : List Event) : Reading :=
  (events.map Event.record).foldl read r

@[simp] theorem readAll_nil (r : Reading) : r.readAll [] = r := rfl

@[simp] theorem readAll_cons (r : Reading) (e : Event) (events : List Event) :
    r.readAll (e :: events) = (r.read e.record).readAll events := rfl

theorem readAll_append (r : Reading) (events more : List Event) :
    r.readAll (events ++ more) = (r.readAll events).readAll more := by
  simp [readAll]

@[simp] theorem read_signalReceived (r : Reading) (request : Signal) :
    r.read (Event.signalReceived request).record =
      if request = .shutdown then { r with phase := .terminated } else r := by
  cases request <;> simp [read, Event.record, Signal.display]

@[simp] theorem read_closed (r : Reading) (reason : Reason) (name : String) :
    r.read (Event.closed reason name).record = { r with held := false } := by
  simp [read, Event.record]

@[simp] theorem read_closeFailed (r : Reading) (reason : Reason) (name : String) (e : IoError) :
    r.read (Event.closeFailed reason name e).record = { r with held := false } := by
  simp [read, Event.record]

@[simp] theorem read_forked (r : Reading) (pid : Nat) (retire : Bool) :
    r.read (Event.forked pid retire).record = { r with pids := r.pids ++ [(pid : Int)] } := by
  simp [read, Event.record, List.lookup]

@[simp] theorem read_alreadyTerminated (r : Reading) (request : Signal) :
    r.read (Event.alreadyTerminated request).record = r := by
  simp [read, Event.record]

@[simp] theorem read_reloadFailed (r : Reading) (address error : String) :
    r.read (Event.reloadFailed address error).record = r := by
  simp [read, Event.record]

@[simp] theorem read_nothingToHandOff (r : Reading) (address : String) :
    r.read (Event.nothingToHandOff address).record = r := by
  simp [read, Event.record]

@[simp] theorem read_alreadyReleased (r : Reading) (reason : Reason) :
    r.read (Event.alreadyReleased reason).record = r := by
  simp [read, Event.record]

/-- Lines with messages that are not `telling` tell the reader nothing. -/
theorem read_eq_self (r : Reading) {line : Record} (h : line.message ∉ telling) :
    r.read line = r := by
  simp only [telling, List.mem_cons, List.not_mem_nil, or_false, not_or] at h
  simp [read, h]

/-- And the other lines can be left out of `events`. -/
theorem readAll_filter (r : Reading) (events : List Event) :
    r.readAll (events.filter (·.record.message ∈ telling)) = r.readAll events := by
  induction events generalizing r with
  | nil => rfl
  | cons e events ih =>
    by_cases he : e.record.message ∈ telling
    · simp only [List.filter_cons, he, decide_true, if_true, readAll_cons, ih]
    · rw [List.filter_cons_of_neg (by simpa using he), readAll_cons, ih, read_eq_self r he]

theorem readAll_eq_self {events : List Event} (r : Reading)
    (h : ∀ e ∈ events, e.record.message ∉ telling) : r.readAll events = r := by
  rw [← readAll_filter, List.filter_eq_nil_iff.mpr (by simpa using h), readAll_nil]

end Reading

/-- **Step.** From the lines `x.own` of a call the reader knows what it has made of the
coordinator. -/
theorem Scene.readAll_of_move {x : Scene} (hm : x.before.Move x.call x.asked x.after)
    (hown : x.own = x.toTurn.account name) (pids : List Int) :
    Reading.readAll ⟨x.before.phase, x.before.listener.isSome, pids⟩ x.own =
      ⟨x.after.phase, x.after.listener.isSome,
        pids ++ x.toTurn.launched.map fun child => (child.pid : Int)⟩ := by
  obtain ⟨⟨k, c, asked⟩, actions, c'⟩ := x
  rw [hown]
  simp only at hm
  -- Every `Move` leaves one list of events to read, up to how a closing went.
  cases hm with
  | reaped hpolls =>
    have hnone : Turn.launched ⟨.reap, c, asked⟩ = [] := filterMap_of_polls hpolls fun _ _ => rfl
    rw [Reading.readAll_eq_self _ fun e he => ?_]
    · simp [hnone]
    · rcases message_seen asked e he with h | h <;> simp [h, Reading.telling]
  | ignored hp => simp [Turn.account, hp, Turn.launched]
  | @ended l result hp hl =>
    rcases result with _ | _ <;>
      simp [Turn.account, hp, hl, Coordinator.missing, Invocation.told, Turn.launched,
        Invocation.launched?]
  | @retired l child result hp hl =>
    rcases result with _ | _ <;>
      simp [Turn.account, hp, hl, Coordinator.missing, Invocation.told, Turn.launched,
        Invocation.launched?]
  | nothing hp hl hr | failed hp hl hr =>
    simp [Turn.account, hp, hl, hr, Coordinator.missing, Invocation.told, Turn.launched,
      Invocation.launched?]
  | joined hp hl | endedLate hp hl =>
    simp [Turn.account, hp, hl, Coordinator.missing, Invocation.told, Turn.launched,
      Invocation.launched?]

/-! ## Whole courses -/

namespace Coordinator

variable {σ : Type} (w : Surroundings σ)
  (ask : σ → Child → Except IoError (Option ExitStatus) × Option ExitStatus × σ)

theorem told_scene (c : Coordinator) (s : σ) (k : Call) :
    (c.scene (w.byHandle ask) s k).Told := by
  obtain ⟨name, hown⟩ := c.own_scene w s ask k
  exact Scene.told_of_move (c.move_perform (w.byHandle ask) s k) hown

/-- **Course.** And so it is with every sequence of calls, by induction on `steps`. -/
theorem readAll_course (c : Coordinator) (steps : List (σ × Call)) (pids : List Int) :
    let xs := c.course (w.byHandle ask) steps
    let c' := c.afterCourse (w.byHandle ask) steps
    Reading.readAll ⟨c.phase, c.listener.isSome, pids⟩ (xs.flatMap Scene.own) =
      ⟨c'.phase, c'.listener.isSome,
        pids ++ (xs.flatMap (·.toTurn.launched)).map fun child => (child.pid : Int)⟩ := by
  induction steps generalizing c pids with
  | nil => simp [course, afterCourse]
  | cons step steps ih =>
    obtain ⟨s, k⟩ := step
    obtain ⟨name, hown⟩ := c.own_scene w s ask k
    have hstep := Scene.readAll_of_move (c.move_perform (w.byHandle ask) s k) hown pids
    simp only [course, List.flatMap_cons, Reading.readAll_append, List.map_append,
      ← List.append_assoc]
    exact (congrArg (Reading.readAll · _) hstep).trans (ih ..)

theorem reports_release (c : Coordinator) (s : σ) (reason : Reason) :
    Action.reports true false (c.release w s reason).actions = [] := by
  unfold release
  cases c.listener <;> rfl

theorem reports_reload (c : Coordinator) (s : σ) (retire : Bool) :
    ∀ e ∈ Action.reports true false (c.reload w s retire).actions,
      ∃ l, e ∈ (w.spawn s c.address l).events := by
  unfold reload
  cases c.listener with
  | none => simp [Action.reports]
  | some l =>
    have hrelease (c : Coordinator) (s : σ) := c.reports_release w s .retire
    refine fun e he => ⟨l, ?_⟩
    cases ho : (w.spawn s c.address l).result with
    | error error => simpa [ho, Action.reports, Action.reports_launching] using he
    | ok child =>
      cases retire <;>
        simpa [ho, Action.reports, Action.reports_launching, Step.andThen, hrelease] using he

/-- What is reported while a launch is going on are events of `w.spawn`. -/
theorem reports_launch (c : Coordinator) (s : σ) (k : Call) :
    ∀ e ∈ Action.reports true false (c.scene (w.byHandle ask) s k).actions,
      ∃ l, e ∈ (w.spawn s c.address l).events := by
  cases k with
  | reap =>
    intro e he
    simp only [scene, perform, reap, actions_pollAll, Action.reports_seen] at he
    cases he
  | handle request =>
    simp only [scene, perform]
    cases hp : c.phase with
    | terminated => simp [handle_terminated _ _ _ hp, Action.reports]
    | serving =>
      by_cases hr : request = .shutdown
      · subst hr
        simp [handle_shutdown _ _ _ hp, Action.reports, reports_release]
      · intro e he
        rw [handle_reload _ _ _ hp hr] at he
        exact c.reports_reload (w.byHandle ask) s _ e he

end Coordinator

/-- The events of `spawnReplacement` have two messages of their own. -/
theorem System.message_spawned (s : System) (address : String) (l : Listener) :
    ∀ e ∈ (s.spawnReplacement address l).events,
      e.record.message = "Launching child process" ∨
        e.record.message = "Spawned child process with inherited listener" := by
  intro e he
  unfold spawnReplacement at he
  split at he
  · cases he
  · simp only [spawnExported] at he
    split at he
    · cases he
    · split at he <;> simp only [List.mem_cons, List.not_mem_nil, or_false] at he
      · subst he
        exact .inl rfl
      · rcases he with rfl | rfl
        · exact .inl rfl
        · exact .inr rfl

namespace Coordinator

/-- What a process reports of a call beside the coordinator does not count where the messages of its
launches do not (`hlaunching`, `hspawned`). -/
theorem filter_actions (c : Coordinator) (s : System) (k : Call) {messages : List String}
    (hlaunching : "Launching child process" ∉ messages)
    (hspawned : "Spawned child process with inherited listener" ∉ messages) :
    ((c.scene System.surroundings s k).actions.filterMap Action.event?).filter
        (·.record.message ∈ messages) =
      (c.scene System.surroundings s k).own.filter (·.record.message ∈ messages) := by
  refine Action.filter_reports fun e he => decide_eq_false ?_
  rw [System.surroundings_eq] at he
  obtain ⟨l, he⟩ := reports_launch _ _ c s k e he
  rcases s.message_spawned c.address l e he with h | h <;> rwa [h]

variable {σ : Type}

/-- **Log.** A coordinator is called in any way. Then every call is `Told` in its lines, and no
request is handled in silence. From its lines alone a reader knows where it is in its life, whether
it holds the listener, and whom it has `launched`, in order. In a process, the launches add lines
with two other messages, and the reader need not tell them apart. -/
theorem log_truthful (w : Surroundings σ)
    (ask : σ → Child → Except IoError (Option ExitStatus) × Option ExitStatus × σ)
    (address : String) (l : Listener) (steps : List (σ × Call)) :
    let xs := (ofListener address l).course (w.byHandle ask) steps
    let c := (ofListener address l).afterCourse (w.byHandle ask) steps
    (∀ x ∈ xs, x.Told) ∧
    Reading.start.readAll (xs.flatMap Scene.own) =
      ⟨c.phase, c.listener.isSome,
        (xs.flatMap (·.toTurn.launched)).map fun child => (child.pid : Int)⟩ ∧
    ∀ steps : List (System × Call),
      let xs := (ofListener address l).course System.surroundings steps
      let c := (ofListener address l).afterCourse System.surroundings steps
      (∀ x ∈ xs, ∀ messages, "Launching child process" ∉ messages →
        "Spawned child process with inherited listener" ∉ messages →
          Event.lines messages (x.actions.filterMap Action.event?) = x.lines messages) ∧
      Reading.start.readAll (xs.flatMap fun x => x.actions.filterMap Action.event?) =
        ⟨c.phase, c.listener.isSome,
          (xs.flatMap (·.toTurn.launched)).map fun child => (child.pid : Int)⟩ := by
  refine ⟨forall_course _ (told_scene w ask) _ steps,
    readAll_course w ask (ofListener address l) steps [], fun steps => ?_⟩
  intro xs c
  -- A process adds two messages of its own to each launch, so the claim for its lines is the one
  -- for `own` with those two left out.
  have hall : ∀ x ∈ xs, ∀ messages : List String, "Launching child process" ∉ messages →
      "Spawned child process with inherited listener" ∉ messages →
        (x.actions.filterMap Action.event?).filter (·.record.message ∈ messages) =
          x.own.filter (·.record.message ∈ messages) := by
    refine forall_course _ (fun c s k => ?_) _ steps
    intro messages hlaunching hspawned
    exact c.filter_actions s k hlaunching hspawned
  have hown := readAll_course System.surroundings System.ask (ofListener address l) steps []
  rw [← System.surroundings_eq] at hown
  refine ⟨fun x hx messages hlaunching hspawned => ?_, ?_⟩
  · rw [Scene.lines, Event.lines, Event.lines, List.filter_map, List.filter_map]
    exact congrArg _ (hall x hx messages hlaunching hspawned)
  -- The reader looks at messages of `telling` only, and neither of the two is among them.
  · have htelling : (xs.flatMap fun x => x.actions.filterMap Action.event?).filter
          (·.record.message ∈ Reading.telling) =
        (xs.flatMap Scene.own).filter (·.record.message ∈ Reading.telling) := by
      rw [List.filter_flatMap, List.filter_flatMap]
      refine congrArg List.flatten (List.map_congr_left fun x hx => ?_)
      exact hall x hx _ (by simp [Reading.telling]) (by simp [Reading.telling])
    rw [← Reading.readAll_filter, htelling, Reading.readAll_filter]
    exact hown

/-- Surroundings with a state `(launch, close)` that says how the next launch goes, and how the next
attempt to close a listener. -/
def prescribed : Surroundings (Except SpawnError Child × Except IoError Unit) where
  spawn s _ _ := ⟨s.1, s, []⟩
  close s _ := (s.2, s)
  name _ _ := "unix:/s"
  poll s c := (.ok none, c, s)

/-- Every child still runs, and no status is kept with it. -/
def stillRuns (s : Except SpawnError Child × Except IoError Unit) (_ : Child) :
    Except IoError (Option ExitStatus) × Option ExitStatus ×
      (Except SpawnError Child × Except IoError Unit) :=
  (.ok none, none, s)

/-- A launch fails, the next one succeeds and the listener cannot be closed; then come a reload, a
shutdown and one more. -/
def lateCalls : List ((Except SpawnError Child × Except IoError Unit) × Call) := [
  ((.error (.currentProgram .entityNotFound), .ok ()), .handle .reloadRetire),
  ((.ok ⟨7, true, none⟩, .error .badDescriptor), .handle .reloadRetire),
  ((.ok ⟨7, true, none⟩, .ok ()), .handle .reloadCoexist),
  ((.ok ⟨7, true, none⟩, .ok ()), .handle .shutdown),
  ((.ok ⟨7, true, none⟩, .ok ()), .handle .shutdown)]

/-- All of the `lateCalls` can be read in the log. A process that retires is read to be without the
listener. -/
theorem log_truthful_late :
    let xs := (ofListener "/s" ⟨.unix, 3⟩).course (prescribed.byHandle stillRuns) lateCalls
    let ys := (ofListener "/s" ⟨.unix, 3⟩).course System.surroundings
      [(running (some "/app"), .handle .reloadRetire)]
    xs.flatMap Scene.own = [.signalReceived .reloadRetire,
        .reloadFailed "/s" (SpawnError.currentProgram .entityNotFound).message,
        .signalReceived .reloadRetire, .forked 7 true,
        .closeFailed .retire "unix:/s" .badDescriptor,
        .signalReceived .reloadCoexist, .nothingToHandOff "/s",
        .signalReceived .shutdown, .alreadyReleased .shutdown, .alreadyTerminated .shutdown] ∧
      (∃ x ∈ xs, x.Told) ∧
      Reading.start.readAll (xs.flatMap Scene.own) = ⟨.terminated, false, [7]⟩ ∧
      (Reading.start.readAll (ys.flatMap fun x => x.actions.filterMap Action.event?)).held =
        false := by
  intro xs ys
  obtain ⟨htold, hread, hprocess⟩ :=
    log_truthful prescribed stillRuns "/s" ⟨.unix, 3⟩ lateCalls
  obtain ⟨-, hys⟩ := hprocess [(running (some "/app"), .handle .reloadRetire)]
  have hok : ((running (some "/app")).spawnReplacement "/s" ⟨.unix, 3⟩).result =
      .ok ⟨2, true, none⟩ := rfl
  have hfirst : xs[0] ∈ xs := List.getElem_mem _
  refine ⟨rfl, ⟨_, hfirst, htold _ hfirst⟩, hread, ?_⟩
  rw [hys]
  simp [afterCourse, perform, handle, ofListener, Step.andThen, reload, System.surroundings, hok,
    release_coordinator]

end Coordinator

end Handoff
