import Handoff.Echo.Server
import Handoff.Proofs.Text.Utf8

/-!
# The lines of a byte stream

What an echo answers is a function of the bytes alone: they are cut behind each newline, and each
line is answered by its text, up to the first one that is no text.

* `Cut`: the whole lines of some bytes, and what stands behind the last newline.
* `Says`: the text of a line.
* `Answers`: what a process answers to lines, and the line at which it gives up.
* `cut_iff`, `Cut.append`: bytes have one cut, and it goes on from one part of them to the next.
* `Echo.answerAll_of_answers`: an echo answers lines in this way.
-/

namespace Handoff

variable {bs cs l l' r r' out out' : List UInt8} {ls ls' : List (List UInt8)} {t : String}
  {pid : Nat} {bad bad' : Option (List UInt8)}

/-! ## Cutting -/

/-- The bytes, cut behind each `newline`: the whole lines, with their newlines, and what stands
behind the last one. -/
inductive Cut : List UInt8 → List (List UInt8) → List UInt8 → Prop
  | rest {r : List UInt8} : newline ∉ r → Cut r [] r
  /-- The first line ends at the first newline. -/
  | line {l bs r : List UInt8} {ls : List (List UInt8)} : newline ∉ l → Cut bs ls r →
      Cut (l ++ newline :: bs) ((l ++ [newline]) :: ls) r

/-- The last line of an input that ends: `rest`, what stands behind the last newline, if there is
anything behind it. -/
def lastLine (rest : List UInt8) : List (List UInt8) := if rest = [] then [] else [rest]

theorem cutLines_of_not_mem (h : newline ∉ r) : cutLines r = ([], r) := by
  induction r with
  | nil => rfl
  | cons b r ih =>
    have hb : b ≠ newline := fun hb => h (hb ▸ List.mem_cons_self)
    simp [cutLines, ih fun hr => h (.tail _ hr), hb]

theorem cutLines_line (h : newline ∉ l) (bs : List UInt8) :
    cutLines (l ++ newline :: bs) =
      ((l ++ [newline]) :: (cutLines bs).1, (cutLines bs).2) := by
  induction l with
  | nil => simp [cutLines]
  | cons b l ih =>
    have hb : b ≠ newline := fun hb => h (hb ▸ List.mem_cons_self)
    simp [cutLines, ih fun hl => h (.tail _ hl), hb]

theorem Cut.cutLines_eq (h : Cut bs ls r) : cutLines bs = (ls, r) := by
  induction h with
  | rest hr => exact cutLines_of_not_mem hr
  | line hl _ ih => rw [cutLines_line hl, ih]

/-- A byte `b` in front that is no `newline` belongs to the first line. -/
theorem Cut.cons {b : UInt8} (hb : b ≠ newline) (h : Cut bs ls r) :
    Cut (b :: bs) (cutLines (b :: bs)).1 (cutLines (b :: bs)).2 := by
  have hcons : ∀ {l : List UInt8}, newline ∉ l → newline ∉ b :: l := fun hl =>
    List.not_mem_cons_of_ne_of_not_mem hb.symm hl
  cases h with
  | rest hr => simpa [cutLines_of_not_mem (hcons hr)] using Cut.rest (hcons hr)
  | @line l bs r ls hl h =>
    rw [← List.cons_append, cutLines_line (hcons hl), h.cutLines_eq]
    exact .line (hcons hl) h

theorem cut_cutLines (bs : List UInt8) : Cut bs (cutLines bs).1 (cutLines bs).2 := by
  induction bs with
  | nil => exact .rest List.not_mem_nil
  | cons b bs ih =>
    by_cases hb : b = newline
    · subst hb
      have := Cut.line List.not_mem_nil ih
      rwa [← List.nil_append (newline :: bs), cutLines_line List.not_mem_nil]
    · exact ih.cons hb

/-- A `Cut` is what `cutLines` computes. -/
theorem cut_iff : Cut bs ls r ↔ cutLines bs = (ls, r) := by
  refine ⟨Cut.cutLines_eq, fun h => ?_⟩
  have := cut_cutLines bs
  rwa [h] at this

/-- The rest `r` behind the last newline goes on in the bytes `cs` that follow. -/
theorem Cut.append (h : Cut bs ls r) (h' : Cut (r ++ cs) ls' r') :
    Cut (bs ++ cs) (ls ++ ls') r' := by
  induction h with
  | rest _ => exact h'
  | line hl _ ih =>
    rw [List.append_assoc, List.cons_append, List.cons_append]
    exact .line hl (ih h')

/-- The lines `ls` of the front `bs` are the first lines of `bs ++ cs`. -/
theorem Cut.exists_append (h : Cut bs ls r) (h' : Cut (bs ++ cs) ls' r') :
    ∃ more, ls' = ls ++ more ∧ Cut (r ++ cs) more r' := by
  have hmore := cut_cutLines (r ++ cs)
  obtain ⟨rfl, rfl⟩ := Prod.mk.inj (h'.cutLines_eq.symm.trans (h.append hmore).cutLines_eq)
  exact ⟨_, rfl, hmore⟩

/-! ## The text of a line -/

/-- The text of a line: it stands in front of the `newline`, and in front of a `carriageReturn`
right before that. Without a newline all of the line is its text. -/
inductive Says : List UInt8 → String → Prop
  /-- A carriage return and a newline end the line. -/
  | crlf (t : String) : Says (Utf8.encode t ++ [carriageReturn, newline]) t
  /-- A newline ends the line. -/
  | lf (t : String) : (Utf8.encode t).getLast? ≠ some carriageReturn →
      Says (Utf8.encode t ++ [newline]) t
  /-- The input ends behind the line. -/
  | rest (t : String) : (Utf8.encode t).getLast? ≠ some newline → Says (Utf8.encode t) t

theorem chomp_crlf (l : List UInt8) : chomp (l ++ [carriageReturn, newline]) = l := by
  simp [chomp]

theorem chomp_lf (h : l.getLast? ≠ some carriageReturn) : chomp (l ++ [newline]) = l := by
  rcases List.eq_nil_or_concat' l with rfl | ⟨init, b, rfl⟩
  · simp [chomp]
  · have hb : b ≠ carriageReturn := by simpa using h
    simp [chomp, hb]

theorem chomp_rest (h : l.getLast? ≠ some newline) : chomp l = l := by
  rcases List.eq_nil_or_concat' l with rfl | ⟨init, b, rfl⟩
  · rfl
  · have hb : b ≠ newline := by simpa using h
    simp [chomp, hb]

/-- The three ways in which a line ends, as `chomp` sees them. -/
theorem chomp_cases (l : List UInt8) :
    l = chomp l ++ [carriageReturn, newline] ∨
      l = chomp l ++ [newline] ∧ (chomp l).getLast? ≠ some carriageReturn ∨
      l = chomp l ∧ l.getLast? ≠ some newline := by
  by_cases hn : l.getLast? = some newline
  · obtain ⟨init, rfl⟩ := List.getLast?_eq_some_iff.mp hn
    by_cases hr : init.getLast? = some carriageReturn
    · obtain ⟨front, rfl⟩ := List.getLast?_eq_some_iff.mp hr
      have := chomp_crlf front
      simp_all
    · rw [chomp_lf hr]
      exact .inr (.inl ⟨rfl, hr⟩)
  · exact .inr (.inr ⟨(chomp_rest hn).symm, hn⟩)

theorem says_iff : Says l t ↔ chomp l = Utf8.encode t := by
  constructor
  · rintro (_ | ⟨_, h⟩ | ⟨_, h⟩)
    · exact chomp_crlf _
    · exact chomp_lf h
    · exact chomp_rest h
  · intro h
    rcases chomp_cases l with hl | ⟨hl, hlast⟩ | ⟨hl, hlast⟩
    · rw [hl, h]
      exact .crlf t
    · rw [hl, h]
      exact .lf t (h ▸ hlast)
    · rw [hl, h]
      exact .rest t (h ▸ hl ▸ hlast)

/-- `chomp` makes no line well formed, and none ill-formed. -/
theorem exists_encode_chomp_iff (l : List UInt8) :
    (∃ s, Utf8.encode s = chomp l) ↔ ∃ s, Utf8.encode s = l := by
  -- What is cut off is ASCII, so no character of the line extends into it.
  have hlf : ∀ m : List UInt8, (∃ s, Utf8.encode s = m ++ [newline]) ↔ ∃ s, Utf8.encode s = m :=
    fun m => Utf8.exists_encode_concat_iff (by decide)
  rcases chomp_cases l with hl | ⟨hl, -⟩ | ⟨hl, -⟩
  · have hcrlf : l = chomp l ++ [carriageReturn] ++ [newline] := by simpa using hl
    have hcr : (∃ s, Utf8.encode s = chomp l ++ [carriageReturn]) ↔ _ :=
      Utf8.exists_encode_concat_iff (by decide)
    conv => rhs; rw [hcrlf]
    rw [hlf, hcr]
  · conv => rhs; rw [hl]
    rw [hlf]
  · rw [← hl]

/-- `Utf8.check` finds nothing wrong with a line exactly if it has a text. -/
theorem check_chomp_eq_none_iff : Utf8.check (chomp l) = none ↔ ∃ t, Says l t := by
  simp only [Utf8.check_eq_none_iff, says_iff, eq_comm (a := chomp l)]

theorem exists_says_iff : (∃ t, Says l t) ↔ ∃ s, Utf8.encode s = l := by
  rw [← exists_encode_chomp_iff]
  simp only [says_iff, eq_comm]

/-- `Utf8.check` finds a fault in a line that is no text. -/
theorem exists_check_chomp (hl : ∀ s, Utf8.encode s ≠ l) :
    ∃ error, Utf8.check (chomp l) = some error := by
  rw [← Option.ne_none_iff_exists', Ne, check_chomp_eq_none_iff, exists_says_iff]
  exact fun ⟨s, hs⟩ => hl s hs

/-! ## Answers -/

/-- What the process `pid` answers to lines, and the first of them that is not well formed, at which
it gives up. -/
inductive Answers (pid : Nat) : List (List UInt8) → List UInt8 → Option (List UInt8) → Prop
  | done : Answers pid [] [] none
  | bad {l : List UInt8} {ls : List (List UInt8)} : (∀ s, Utf8.encode s ≠ l) →
      Answers pid (l :: ls) [] (some l)
  | answer {l out : List UInt8} {ls : List (List UInt8)} {t : String} {bad : Option (List UInt8)} :
      Says l t → Answers pid ls out bad →
      Answers pid (l :: ls) (Utf8.encode s!"{pid}: {t}\n" ++ out) bad

theorem encode_answer (pid : Nat) (t : String) :
    Utf8.encode s!"{pid}: {t}\n" = EchoServer.labelOf pid ++ Utf8.encode t ++ [newline] := by
  have hend : Utf8.encode "\n" = [newline] := by
    rw [Utf8.encode_eq_flatMap]
    rfl
  have htext : s!"{pid}: {t}\n" = s!"{pid}: " ++ t ++ "\n" := rfl
  rw [htext, Utf8.encode_append, Utf8.encode_append, hend, EchoServer.labelOf]

theorem exists_answers (pid : Nat) (ls : List (List UInt8)) :
    ∃ out bad, Answers pid ls out bad := by
  induction ls with
  | nil => exact ⟨_, _, .done⟩
  | cons l ls ih =>
    obtain ⟨out, bad, h⟩ := ih
    by_cases hl : ∃ t, Says l t
    · obtain ⟨t, ht⟩ := hl
      exact ⟨_, _, .answer ht h⟩
    · rw [exists_says_iff] at hl
      exact ⟨_, _, .bad fun s hs => hl ⟨s, hs⟩⟩

namespace Answers

theorem append (h : Answers pid ls out none) (h' : Answers pid ls' out' bad) :
    Answers pid (ls ++ ls') (out ++ out') bad := by
  generalize hnone : (none : Option (List UInt8)) = b at h
  induction h with
  | done => exact h'
  | bad => cases hnone
  | answer ht _ ih =>
    rw [List.append_assoc]
    exact .answer ht (ih hnone)

/-- Behind a line `l` that is no text nothing is answered. -/
theorem append_of_bad (h : Answers pid ls out (some l)) (ls' : List (List UInt8)) :
    Answers pid (ls ++ ls') out (some l) := by
  generalize hsome : some l = b at h ⊢
  induction h with
  | done => cases hsome
  | bad hl => exact .bad hl
  | answer ht _ ih => exact .answer ht (ih hsome)

/-- The answers are a function of the lines: `Says` gives a line at most one text. -/
theorem unique (h : Answers pid ls out bad) (h' : Answers pid ls out' bad') :
    out = out' ∧ bad = bad' := by
  induction h generalizing out' with
  | done =>
    cases h'
    exact ⟨rfl, rfl⟩
  | bad hl =>
    cases h' with
    | bad => exact ⟨rfl, rfl⟩
    | answer ht _ =>
      obtain ⟨s, hs⟩ := exists_says_iff.mp ⟨_, ht⟩
      exact (hl s hs).elim
  | answer ht _ ih =>
    cases h' with
    | bad hl =>
      obtain ⟨s, hs⟩ := exists_says_iff.mp ⟨_, ht⟩
      exact (hl s hs).elim
    | answer ht' h' =>
      have htext := (says_iff.mp ht).symm.trans (says_iff.mp ht')
      obtain ⟨rfl, rfl⟩ := ih h'
      rw [encode_answer, encode_answer, htext]
      exact ⟨rfl, rfl⟩

/-- The answers to `ls` are the first ones of those to `ls ++ ls'`. -/
theorem isPrefix (h : Answers pid ls out bad) (h' : Answers pid (ls ++ ls') out' bad') :
    out <+: out' := by
  cases bad with
  | none =>
    obtain ⟨more, bad, hmore⟩ := exists_answers pid ls'
    rw [((h.append hmore).unique h').1.symm]
    exact List.prefix_append _ _
  | some l => exact ((h.append_of_bad ls').unique h').1 ▸ List.prefix_rfl

end Answers

/-! ## The echo -/

/-- What `Utf8.check` finds in the line at which an echo gives up. -/
def faultOf (bad : Option (List UInt8)) : Option Utf8.Error :=
  bad.bind fun l => Utf8.check (chomp l)

theorem Answers.faultOf_eq_none_iff (h : Answers pid ls out bad) :
    faultOf bad = none ↔ bad = none := by
  induction h with
  | done => simp [faultOf]
  | bad hl =>
    obtain ⟨error, herror⟩ := exists_check_chomp hl
    simp [faultOf, herror]
  | answer _ _ ih => exact ih

namespace Echo

variable {e : Echo} {bytes : List UInt8}

/-- An echo with a `fault` answers nothing. -/
theorem answerAll_of_fault {error : Utf8.Error} (he : e.fault = some error)
    (ls : List (List UInt8)) : e.answerAll ls = (e, []) := by
  induction ls with
  | nil => rfl
  | cons l ls ih => simp [answerAll, answer, he, ih]

/-- An echo with the label of `pid` gives the `Answers`, and counts the lines. At a bad line it
keeps the fault. -/
theorem answerAll_of_answers (h : Answers pid ls out bad)
    (hlabel : e.label = EchoServer.labelOf pid) (hfault : e.fault = none) :
    (e.answerAll ls).2 = out ∧ (e.answerAll ls).1.fault = faultOf bad ∧
      (bad = none → (e.answerAll ls).1 = { e with lines := e.lines + ls.length }) := by
  induction h generalizing e with
  | done => exact ⟨rfl, hfault, fun _ => rfl⟩
  | @bad l ls hl =>
    obtain ⟨error, herror⟩ := exists_check_chomp hl
    have hanswer : e.answer l = ({ e with fault := some error }, []) := by
      simp [answer, hfault, herror]
    have hrest := answerAll_of_fault (e := { e with fault := some error }) rfl ls
    simp [answerAll, hanswer, hrest, faultOf, herror]
  | @answer l out ls t bad ht _ ih =>
    have htext := says_iff.mp ht
    have hcheck : Utf8.check (chomp l) = none := check_chomp_eq_none_iff.mpr ⟨t, ht⟩
    have hanswer : e.answer l =
        ({ e with lines := e.lines + 1 }, Utf8.encode s!"{pid}: {t}\n") := by
      rw [encode_answer, ← htext, ← hlabel]
      simp [answer, hfault, hcheck]
    obtain ⟨hout, hbad, hcount⟩ := ih (e := { e with lines := e.lines + 1 }) hlabel hfault
    simp only [answerAll, hanswer, hout, true_and]
    refine ⟨hbad, fun hnone => ?_⟩
    rw [hcount hnone, List.length_cons, Nat.add_assoc, Nat.add_comm 1]

theorem feed_of_cut (h : Cut (e.rest ++ bytes) ls r) :
    e.feed bytes = { e with rest := r }.answerAll ls := by
  rw [feed, h.cutLines_eq]

/-- The end of the input ends the line that the `rest` of `e` has begun. -/
theorem finish_eq (e : Echo) : e.finish = { e with rest := [] }.answerAll (lastLine e.rest) := by
  unfold finish lastLine
  split
  · rename_i h
    obtain ⟨label, rest, lines, fault⟩ := e
    obtain rfl : rest = [] := h
    rfl
  · simp [answerAll]

end Echo

end Handoff
