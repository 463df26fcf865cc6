import Handoff.Proofs.Descriptor.Line
import Handoff.Proofs.Spawn.Inheritance
import Handoff.Proofs.System.Environment

/-!
# The variable that a plan adds

Whether a plan can be carried out depends on its program, its arguments and its fds, and on the size
of all texts. A written descriptor holds no NUL, so the variable with it adds to the size and is
harmless otherwise.

* `SpawnPlan.Startable`: all that a launch asks for besides texts that can be handed over.
* `SpawnPlan.launch_of_startable`, `SpawnPlan.startable_of_launch`: with it, only the size can make
  a launch fail.
* `Descriptor.encode_legal`: what a written descriptor is, and what it does to a launch.
-/

namespace Handoff

namespace SpawnPlan

variable {s : System} {p plan plan' : SpawnPlan} {env : Environment} {program : OsText}
  {args : List OsText} {x y : Descriptor} {fd : Int}

/-! ## Sizes -/

/-- The size of all texts that the program of `p` is given, and of their places. -/
def listSize (p : SpawnPlan) (env : Environment) : Nat :=
  (p.textSizes env).foldl (fun n size => n + size + 9) (p.program.size + 1)

theorem isTooLong_iff :
    p.isTooLong env = true ↔
      (∃ n ∈ p.textSizes env, textLimit ≤ n) ∨ listLimit < p.listSize env := by
  simp [isTooLong, listSize]

/-- The size of a variable of this `value`, with its `name`. -/
def entrySize (name value : OsText) : Nat := name.size + 1 + value.size

/-- The texts besides a variable `name` that is set. -/
theorem mem_textSizes_set_iff {name value : OsText} {n : Nat} :
    n ∈ p.textSizes (env.set name value) ↔
      n = entrySize name value ∨ n ∈ p.textSizes (env.unset name) := by
  simp only [textSizes, Environment.entries_set, entrySize, List.map_cons, List.mem_append,
    List.mem_cons]
  tauto

/-- Nothing bounds the size of a descriptor: that of `x.debugName` goes into it. -/
theorem textLimit_le_entrySize {x : Descriptor} (h : textLimit ≤ x.debugName.toList.length) :
    textLimit ≤ entrySize listenerVariable x.encode := by
  have hsize := OsText.length_le_size x.encode
  have hname := x.length_debugName_le
  unfold entrySize
  omega

/-! ## Launches -/

/-- All that the launch of `p` asks for besides the variable that is added and the size of all
texts. -/
structure Startable (p : SpawnPlan) (s : System) : Prop where
  program : p.program.contains '\x00' = false
  args : ∀ a ∈ p.args, a.contains '\x00' = false
  /-- The working directory is entered, the fds are set up and the program is found. -/
  runs : ∃ cwd t path, s.files.enter s.self.cwd p.workingDir = .ok cwd ∧
    installHandles s.fds 0 p.handles = .ok t ∧ s.files.executable cwd p.program = .ok path

theorem holdsNul_eq_false_iff :
    p.holdsNul = false ↔
      (p.program.contains '\x00' = false ∧ ∀ a ∈ p.args, a.contains '\x00' = false) ∧
        '\x00' ∉ p.entry.1.toList ∧ '\x00' ∉ p.entry.2.toList := by
  simp [holdsNul, and_assoc]

/-- With all that, the launch fails for its size or not at all. -/
theorem launch_of_startable (h : p.Startable s)
    (hentry : '\x00' ∉ p.entry.1.toList ∧ '\x00' ∉ p.entry.2.toList) :
    (p.launch s).1 =
      if p.isTooLong (s.self.env.set p.entry.1 p.entry.2) = true then
        .error (.launch p.program .argumentListTooLong)
      else .ok ⟨s.nextPid, true, none⟩ := by
  have hnul : p.holdsNul = false := holdsNul_eq_false_iff.mpr ⟨⟨h.program, h.args⟩, hentry⟩
  obtain ⟨cwd, t, path, hcwd, ht, hpath⟩ := h.runs
  simp only [launch, hnul, Bool.false_eq_true, if_false, child, hcwd, ht, hpath]
  by_cases hlong : p.isTooLong (s.self.env.set p.entry.1 p.entry.2) = true
  · simp only [hlong, if_true]
  · simp only [hlong, Bool.false_eq_true, if_false]

theorem startable_of_launch {c : Child} (h : (p.launch s).1 = .ok c) :
    p.Startable s ∧ p.isTooLong (s.self.env.set p.entry.1 p.entry.2) = false := by
  unfold launch at h
  split at h
  · cases h
  rename_i hnul
  obtain ⟨⟨hprogram, hargs⟩, -⟩ := holdsNul_eq_false_iff.mp (Bool.not_eq_true _ ▸ hnul)
  split at h
  · cases h
  rename_i process hchild
  unfold child at hchild
  split at hchild
  · cases hchild
  rename_i cwd hcwd
  split at hchild
  · cases hchild
  rename_i t ht
  split at hchild
  · cases hchild
  rename_i path hpath
  simp only at hchild
  split at hchild
  · cases hchild
  rename_i hlong
  exact ⟨⟨hprogram, hargs, cwd, t, path, hcwd, ht, hpath⟩, Bool.not_eq_true _ ▸ hlong⟩

/-! ## Plans with a descriptor -/

theorem entry_ofProgram (hplan : ofProgram program args x fd = .ok plan) :
    plan.program = program ∧ plan.args = args ∧ plan.entry = (listenerVariable, x.encode) := by
  obtain ⟨dir, -, rfl⟩ := ofProgram_eq_ok.mp hplan
  exact ⟨rfl, rfl, rfl⟩

/-- The same for a `plan` with a descriptor `x`, as a written descriptor holds no NUL. -/
theorem launch_ofProgram (hplan : ofProgram program args x fd = .ok plan) (h : plan.Startable s) :
    (plan.launch s).1 =
      if plan.isTooLong (s.self.env.set listenerVariable x.encode) = true then
        .error (.launch program .argumentListTooLong)
      else .ok ⟨s.nextPid, true, none⟩ := by
  obtain ⟨hprogram, -, hentry⟩ := entry_ofProgram hplan
  have hvariable : '\x00' ∉ listenerVariable.toList := by decide
  have hvalue : '\x00' ∉ x.encode.toList := x.isLine_encode.unended.1
  rw [launch_of_startable h (by rw [hentry]; exact ⟨hvariable, hvalue⟩), hentry, hprogram]

theorem isTooLong_of_launch {c : Child} (hplan : ofProgram program args x fd = .ok plan)
    (h : (plan.launch s).1 = .ok c) :
    plan.isTooLong (s.self.env.set listenerVariable x.encode) = false := by
  obtain ⟨-, -, hentry⟩ := entry_ofProgram hplan
  have hlong := (startable_of_launch h).2
  rwa [hentry] at hlong

/-- Plans that differ by the descriptor, `x` or `y`, ask for the same besides. -/
theorem startable_ofProgram (hplan : ofProgram program args x fd = .ok plan)
    (hplan' : ofProgram program args y fd = .ok plan') (h : plan'.Startable s) :
    plan.Startable s := by
  obtain ⟨dir, hdir, rfl⟩ := ofProgram_eq_ok.mp hplan
  obtain ⟨dir', hdir', rfl⟩ := ofProgram_eq_ok.mp hplan'
  obtain rfl := Option.some.inj (hdir.symm.trans hdir')
  exact ⟨h.program, h.args, h.runs⟩

/-- A launch that is possible with the descriptor `y` (`hok`) fails with `x` only for its size: the
variable by itself is too long, or it makes the whole too long. -/
theorem tooLong_of_launch {c : Child} {error : SpawnError}
    (hplan : ofProgram program args x fd = .ok plan)
    (hplan' : ofProgram program args y fd = .ok plan') (hok : (plan'.launch s).1 = .ok c)
    (herror : (plan.launch s).1 = .error error) :
    error = .launch program .argumentListTooLong ∧
      (textLimit ≤ entrySize listenerVariable x.encode ∨
        listLimit < plan.listSize (s.self.env.set listenerVariable x.encode)) := by
  have hstart := startable_ofProgram hplan hplan' (startable_of_launch hok).1
  have hshort := isTooLong_of_launch hplan' hok
  rw [launch_ofProgram hplan hstart] at herror
  split at herror
  · rename_i hlong
    refine ⟨(Except.error.inj herror).symm, ?_⟩
    rcases isTooLong_iff.mp hlong with ⟨n, hn, hle⟩ | hlist
    · refine .inl ?_
      rcases mem_textSizes_set_iff.mp hn with hn | hn
      · rwa [hn] at hle
      · -- Any other text would be as long with the other descriptor.
        obtain ⟨hprogram, hargs, -⟩ := entry_ofProgram hplan
        obtain ⟨hprogram', hargs', -⟩ := entry_ofProgram hplan'
        have hn' : n ∈ plan'.textSizes (s.self.env.set listenerVariable y.encode) := by
          refine mem_textSizes_set_iff.mpr (.inr ?_)
          rwa [textSizes, hprogram', hargs', ← hprogram, ← hargs]
        rw [isTooLong_iff.mpr (.inl ⟨n, hn', hle⟩)] at hshort
        cases hshort
    · exact .inr hlist
  · cases herror

end SpawnPlan

namespace Descriptor

open SpawnPlan

/-! ## Two launches -/

/-- A descriptor with control characters in its texts. -/
def withControls : Descriptor := .ofListener "/\x00\n" "\r\t\x1b\"\\"

/-- A descriptor with a name that is longer than a text may be. -/
def withLongName : Descriptor := .ofListener "/s" (String.ofList (List.replicate 140000 'z'))

/-- The plan for a child with the descriptor `x`. -/
def planFor (x : Descriptor) : SpawnPlan :=
  ⟨"/app", [], "/", (listenerVariable, x.encode), childHandles 3⟩

theorem ofProgram_planFor (x : Descriptor) : ofProgram "/app" [] x 3 = .ok (planFor x) :=
  ofProgram_eq_ok.mpr ⟨[Path.slash], rfl, rfl⟩

theorem startable_planFor (x : Descriptor) : (planFor x).Startable System.servingUnix := by
  have hprogram : (OsText.ofString "/app").contains '\x00' = false := by decide
  have hdir : System.servingUnix.files.enter [] "/" = .ok [] := by rfl
  have hpath : System.servingUnix.files.executable [] "/app" = .ok "/app" := by rfl
  exact ⟨hprogram, fun a ha => (List.not_mem_nil ha).elim, [], _, _, hdir, rfl, hpath⟩

theorem launch_withControls :
    ((planFor withControls).launch System.servingUnix).1 = .ok ⟨2, true, none⟩ := by
  rw [launch_ofProgram (ofProgram_planFor _) (startable_planFor _), if_neg]
  · rfl
  · decide

theorem launch_withLongName :
    ((planFor withLongName).launch System.servingUnix).1 =
      .error (.launch "/app" .argumentListTooLong) := by
  have hname : textLimit ≤ withLongName.debugName.toList.length := by
    rw [withLongName, ofListener, String.toList_ofList, List.length_replicate]
    decide
  rw [launch_ofProgram (ofProgram_planFor _) (startable_planFor _), if_pos]
  exact isTooLong_iff.mpr
    (.inl ⟨_, mem_textSizes_set_iff.mpr (.inl rfl), textLimit_le_entrySize hname⟩)

/-! ## Results -/

/-- **Descriptors as values of a variable.** A written descriptor is one line without control
characters. No plan fails for its descriptor. A launch succeeds exactly if it is `Startable`, that
is if it has all else that it asks for, and the texts are not too long, and one that succeeds with
another descriptor `y` fails with `x` for the size only: the variable takes too much by itself or
makes the whole too long. -/
theorem encode_legal :
    (∀ x : Descriptor, IsLine x.encode) ∧
    (∀ (x y : Descriptor) (program : OsText) (args : List OsText) (fd : Int) (error : SpawnError),
      ofProgram program args x fd = .error error →
        error = .noWorkingDir program ∧ ofProgram program args y fd = .error error) ∧
    ∀ (x : Descriptor) (program : OsText) (args : List OsText) (fd : Int) (plan : SpawnPlan)
      (s : System), ofProgram program args x fd = .ok plan →
        ((∃ child, (plan.launch s).1 = .ok child) ↔ plan.Startable s ∧
          plan.isTooLong (s.self.env.set listenerVariable x.encode) = false) ∧
        ∀ (y : Descriptor) (plan' : SpawnPlan) (child : Child) (error : SpawnError),
          ofProgram program args y fd = .ok plan' → (plan'.launch s).1 = .ok child →
            (plan.launch s).1 = .error error →
              error = .launch program .argumentListTooLong ∧
                (textLimit ≤ entrySize listenerVariable x.encode ∨
                  listLimit < plan.listSize (s.self.env.set listenerVariable x.encode)) := by
  refine ⟨isLine_encode, fun x y program args fd error herror => ?_, ?_⟩
  · obtain ⟨rfl, hdir⟩ := ofProgram_eq_error.mp herror
    exact ⟨rfl, ofProgram_eq_error.mpr ⟨rfl, hdir⟩⟩
  · intro x program args fd plan s hplan
    refine ⟨⟨?_, fun ⟨hstart, hshort⟩ => ?_⟩, fun y plan' child error => tooLong_of_launch hplan⟩
    · rintro ⟨child, hok⟩
      exact ⟨(startable_of_launch hok).1, isTooLong_of_launch hplan hok⟩
    · exact ⟨_, by rw [launch_ofProgram hplan hstart, hshort]; rfl⟩

/-- Texts of control characters do no harm. A long name is refused for its size, and the path of the
root is refused with any descriptor. -/
theorem encode_legal_controls :
    IsLine withControls.encode ∧
    (∃ child, ((planFor withControls).launch System.servingUnix).1 = .ok child) ∧
    (textLimit ≤ entrySize listenerVariable withLongName.encode ∨
      listLimit < (planFor withLongName).listSize
        (System.servingUnix.self.env.set listenerVariable withLongName.encode)) ∧
    ofProgram "/" [] withLongName 3 = .error (.noWorkingDir "/") := by
  obtain ⟨hline, hplan, hlaunch⟩ := encode_legal
  have hcontrols := hlaunch _ _ _ _ _ System.servingUnix (ofProgram_planFor withControls)
  have hlong := hlaunch _ _ _ _ _ System.servingUnix (ofProgram_planFor withLongName)
  refine ⟨hline _, hcontrols.1.mpr ⟨startable_planFor _, by decide⟩, ?_, ?_⟩
  · exact (hlong.2 _ _ _ _ (ofProgram_planFor withControls) launch_withControls
      launch_withLongName).2
  · exact (hplan withControls withLongName "/" [] 3 _ rfl).2

/-- So a launch can succeed with one descriptor and fail with another. -/
theorem not_launch_of_other :
    ¬ ∀ (x y : Descriptor) (program : OsText) (args : List OsText) (fd : Int)
        (plan plan' : SpawnPlan) (s : System) (child : Child),
      ofProgram program args x fd = .ok plan → ofProgram program args y fd = .ok plan' →
        (plan'.launch s).1 = .ok child → ∃ child', (plan.launch s).1 = .ok child' := by
  intro h
  obtain ⟨child, hok⟩ := h withLongName withControls "/app" [] 3 _ _ System.servingUnix _
    (ofProgram_planFor _) (ofProgram_planFor _) launch_withControls
  rw [launch_withLongName] at hok
  cases hok

end Descriptor

end Handoff
