import Mathlib.Tactic.SplitIfs
import Handoff.CommandLine
import Handoff.Proofs.Decimal
import Handoff.Proofs.Text.OsText

/-!
# Accepted command lines

A command line spells settings, each an option with its value. Where it does, reading it is the same
as giving the options their values one after another, faults included (`CommandLine.readAll_eq`),
although a setting whose value stands in an argument of its own is held back for a while.

* `CommandLine.Spelled`: the arguments that spell settings, by the form of each argument
  (`Attached`, `Alone`, `Plain`).
* `CommandLine.assignAll`: settings one after another.
* `CommandLine.parse_eq_ok_iff`: the command lines that are accepted, and what they ask for.
-/

namespace Handoff

def ValueOption.longName : ValueOption → String
  | .addr => "addr"
  | .drainTimeoutSecs => "drain-timeout-secs"

def ValueOption.letter? : ValueOption → Option Char
  | .addr => some 'a'
  | .drainTimeoutSecs => none

namespace CommandLine

variable {a v : OsText} {args rest : List OsText} {o : ValueOption} {k k' : Scan}
  {line line' : CommandLine}

abbrev Setting := ValueOption × OsText

variable {ss ts : List Setting}

/-! ## The forms of arguments -/

/-- What an option is called on the command line: `--` and its `longName`, or `-` and its letter. -/
inductive Names : String → ValueOption → Prop
  | long (o : ValueOption) : Names ("--" ++ o.longName) o
  | letter {o : ValueOption} {c : Char} : o.letter? = some c → Names (.ofList ['-', c]) o

/-- Arguments with an option and its value `v`: `--name=v`, `-n=v`, or `-nv`. -/
inductive Attached : OsText → ValueOption → OsText → Prop
  /-- The value is behind `=`. -/
  | equals {name : String} {o : ValueOption} (v : OsText) : Names name o →
      Attached (.prepend (name ++ "=") v) o v
  /-- The value is right behind the letter. -/
  | glued {o : ValueOption} {c : Char} {v : OsText} : o.letter? = some c → v.chars ≠ [] →
      v.chars.head? ≠ some (.char '=') → Attached (.prepend (.ofList ['-', c]) v) o v

/-- Arguments with an option and without its value. -/
inductive Alone : OsText → ValueOption → Prop
  | mk {name : String} {o : ValueOption} : Names name o → Alone (.ofString name) o

/-- Arguments without an option: a dash, or what does not start with one. -/
def Plain (a : OsText) : Prop := a.chars = [.char '-'] ∨ a.chars.head? ≠ some (.char '-')

theorem Plain.ne_dashes (h : Plain a) : a.chars ≠ [.char '-', .char '-'] := by
  rintro ha
  simp [Plain, ha] at h

/-- The arguments that spell settings: each option with its value, in one argument or in two. -/
inductive Spelled : List OsText → List Setting → Prop
  | nil : Spelled [] []
  /-- Two dashes, with nothing behind them. -/
  | dashes : Spelled [.ofString "--"] []
  /-- An option with its value. -/
  | attached {a v : OsText} {o : ValueOption} {args : List OsText} {ss : List Setting} :
      Attached a o v → Spelled args ss → Spelled (a :: args) ((o, v) :: ss)
  /-- An option, and its value as the next argument. -/
  | apart {a v : OsText} {o : ValueOption} {args : List OsText} {ss : List Setting} :
      Alone a o → Plain v → Spelled args ss → Spelled (a :: v :: args) ((o, v) :: ss)

/-! ## One argument -/

/-- What `readAll` does with an argument other than two dashes. -/
def readOne (k : Scan) (a : OsText) : Except Stop Scan :=
  match a.chars with
  | .char '-' :: .char '-' :: cs => readLong k cs
  | .char '-' :: c :: cs => readLetters k (c :: cs)
  | _ => readPlain k a

theorem readOne_long {cs : List OsChar} (ha : a.chars = .char '-' :: .char '-' :: cs) :
    readOne k a = readLong k cs := by
  simp only [readOne, ha]

theorem readOne_letters {c : OsChar} {cs : List OsChar}
    (ha : a.chars = .char '-' :: c :: cs) (hc : c ≠ .char '-') :
    readOne k a = readLetters k (c :: cs) := by
  rw [readOne, ha]
  split
  · rename_i heq
    exact absurd (List.cons.inj (List.cons.inj heq).2).1 hc
  · rename_i heq
    cases heq
    rfl
  · rename_i hne
    exact absurd rfl (hne c cs)

theorem readOne_plain (ha : Plain a) : readOne k a = readPlain k a := by
  unfold readOne
  split
  · rename_i heq
    simp [Plain, heq] at ha
  · rename_i heq
    simp [Plain, heq] at ha
  · rfl

/-- What the first characters of an argument tell, as `readOne` looks at them. -/
theorem arg_cases (a : OsText) :
    (∃ cs, a.chars = .char '-' :: .char '-' :: cs) ∨
      (∃ c cs, a.chars = .char '-' :: c :: cs ∧ c ≠ .char '-') ∨ Plain a := by
  obtain ⟨cs⟩ := a
  rcases cs with - | ⟨x, - | ⟨c, cs⟩⟩
  · exact .inr (.inr (.inr (by simp)))
  · by_cases hx : x = .char '-'
    · exact .inr (.inr (.inl (hx ▸ rfl)))
    · exact .inr (.inr (.inr (by simpa using hx)))
  · by_cases hx : x = .char '-'
    · subst hx
      by_cases hc : c = .char '-'
      · exact .inl ⟨cs, hc ▸ rfl⟩
      · exact .inr (.inl ⟨c, cs, rfl, hc⟩)
    · exact .inr (.inr (.inr (by simpa using hx)))

/-- Any argument `a` other than two dashes is read by itself, with `readOne`. -/
theorem readAll_cons (ha : a.chars ≠ [.char '-', .char '-']) :
    readAll k (a :: rest) = readOne k a >>= fun k' => readAll k' rest := by
  rw [readAll.eq_def]
  simp only
  split
  · contradiction
  · rename_i heq
    rw [readOne_long heq]
    cases readLong k _ <;> rfl
  · rename_i hc heq
    rw [readOne_letters heq hc]
    cases readLetters k _ <;> rfl
  · rename_i hlong hletters
    obtain ⟨cs, h⟩ | ⟨c, cs, h, -⟩ | h := arg_cases a
    · exact (hlong cs h).elim
    · exact (hletters c cs h).elim
    · rw [readOne_plain h]
      cases readPlain k a <;> rfl

/-! ## Names and letters -/

theorem longMeaning?_eq_value_iff {name : String} :
    longMeaning? name = some (.value o) ↔ name = o.longName := by
  unfold longMeaning?
  split_ifs <;> cases o <;> simp_all [ValueOption.longName]

theorem letterMeaning?_eq_value_iff {c : Char} :
    letterMeaning? c = some (.value o) ↔ o.letter? = some c := by
  unfold letterMeaning?
  split_ifs <;> cases o <;> simp_all [ValueOption.letter?, eq_comm]

theorem longName_ne (o : ValueOption) {x : OsChar} (hx : x ∈ o.longName.toList.map .char) :
    decide (x ≠ .char '=') = true := by
  cases o <;> revert x <;> decide

theorem letter?_ne {c : Char} (hc : o.letter? = some c) : OsChar.char c ≠ .char '-' := by
  cases o <;> cases hc
  decide

theorem toString?_longName (o : ValueOption) :
    (OsText.mk (o.longName.toList.map .char)).toString? = some o.longName :=
  OsText.toString?_ofString o.longName

/-! ## Arguments with an option -/

/-- What an option is called (`h`), and nothing or `=` behind it (`htail`): the option is met, with
what stands behind `=` as its value. -/
theorem readOne_names {name : String} (h : Names name o) (tail : List OsChar)
    (ha : a.chars = name.toList.map .char ++ tail)
    (htail : ∀ x cs, tail = x :: cs → x = .char '=') :
    a.chars ≠ [.char '-', .char '-'] ∧ readOne k a = meet k o (tail.tail?.map OsText.mk) := by
  cases h with
  | long o =>
    replace ha : a.chars = .char '-' :: .char '-' :: (o.longName.toList.map .char ++ tail) := by
      simpa using ha
    have hends : tail.takeWhile (· ≠ .char '=') = [] ∧ tail.dropWhile (· ≠ .char '=') = tail := by
      cases tail with
      | nil => exact ⟨rfl, rfl⟩
      | cons x cs => simp [htail x cs rfl]
    refine ⟨fun h => ?_, ?_⟩
    · rw [ha] at h
      cases o <;> simp [ValueOption.longName] at h
    · rw [readOne_long ha, readLong, List.takeWhile_append_of_pos fun _ => longName_ne o,
        List.dropWhile_append_of_pos fun _ => longName_ne o, hends.1, hends.2, List.append_nil]
      simp only [toString?_longName, Option.bind_some,
        longMeaning?_eq_value_iff.mpr (rfl : o.longName = o.longName)]
      cases tail <;> rfl
  | @letter _ c hc =>
    replace ha : a.chars = .char '-' :: .char c :: tail := by simpa using ha
    refine ⟨fun h => ?_, ?_⟩
    · rw [ha] at h
      exact letter?_ne hc (List.cons.inj (List.cons.inj h).2).1
    · rw [readOne_letters ha (letter?_ne hc), readLetters]
      simp only [letterMeaning?_eq_value_iff.mpr hc]
      cases tail with
      | nil => rfl
      | cons x cs =>
        obtain rfl := htail x cs rfl
        rfl

theorem readOne_attached (h : Attached a o v) :
    a.chars ≠ [.char '-', .char '-'] ∧ readOne k a = meet k o (some v) := by
  cases h with
  | equals _ hname =>
    exact readOne_names hname (.char '=' :: v.chars) (by simp [OsText.prepend])
      (by rintro _ _ ⟨⟩; rfl)
  | @glued _ c _ hc hne heq =>
    have ha : (OsText.prepend (.ofList ['-', c]) v).chars = .char '-' :: .char c :: v.chars := by
      simp [OsText.prepend]
    refine ⟨fun h => ?_, ?_⟩
    · rw [ha] at h
      exact letter?_ne hc (List.cons.inj (List.cons.inj h).2).1
    · rw [readOne_letters ha (letter?_ne hc), readLetters]
      simp only [letterMeaning?_eq_value_iff.mpr hc]
      split
      · contradiction
      · rename_i h
        simp [h] at heq
      · rfl

theorem readOne_alone (h : Alone a o) :
    a.chars ≠ [.char '-', .char '-'] ∧ readOne k a = meet k o none := by
  obtain ⟨hname⟩ := h
  exact readOne_names hname [] (by simp [OsText.ofString]) (by rintro _ _ ⟨⟩)

theorem meetFlag_ne_ok (f : TextFlag) : meetFlag k f ≠ .ok k' := by
  unfold meetFlag
  split <;> rintro ⟨⟩

/-- What starts with a name is the name alone, or `=` and a value behind it. -/
theorem forms_of_names {name : String} (h : Names name o) (tail : List OsChar)
    (ha : a.chars = name.toList.map .char ++ tail)
    (htail : ∀ x cs, tail = x :: cs → x = .char '=') :
    (∃ v, Attached a o v) ∨ Alone a o := by
  obtain ⟨cs⟩ := a
  obtain rfl : cs = _ := ha
  cases tail with
  | nil => exact .inr (by simpa [OsText.ofString] using Alone.mk h)
  | cons x v =>
    obtain rfl := htail x v rfl
    exact .inl ⟨⟨v⟩, by simpa [OsText.prepend] using Attached.equals ⟨v⟩ h⟩

theorem forms_of_readLong {cs : List OsChar} (ha : a.chars = .char '-' :: .char '-' :: cs)
    (h : readLong k cs = .ok k') : ∃ o, (∃ v, Attached a o v) ∨ Alone a o := by
  unfold readLong at h
  simp only at h
  split at h
  · cases h
  · rename_i o hmeaning
    obtain ⟨name, hname, hlong⟩ := Option.bind_eq_some_iff.mp hmeaning
    rw [longMeaning?_eq_value_iff] at hlong
    rw [OsText.toString?_eq_some_iff, hlong, OsText.ofString, OsText.mk.injEq] at hname
    refine ⟨o, forms_of_names (.long o) (cs.dropWhile (· ≠ .char '=')) ?_ ?_⟩
    · rw [String.toList_append, List.map_append, ← hname, List.append_assoc,
        List.takeWhile_append_dropWhile]
      exact ha
    · intro x tail htail
      have hx := List.head?_dropWhile_not (· ≠ .char '=') cs
      rw [htail] at hx
      simpa using hx
  · split at h
    · exact absurd h (meetFlag_ne_ok _)
    · cases h

theorem forms_of_readLetters {c : OsChar} {cs : List OsChar}
    (ha : a.chars = .char '-' :: c :: cs) (h : readLetters k (c :: cs) = .ok k') :
    ∃ o, (∃ v, Attached a o v) ∨ Alone a o := by
  cases c with
  | hole bytes => cases h
  | char c =>
    unfold readLetters at h
    simp only at h
    split at h
    · cases h
    · exact absurd h (meetFlag_ne_ok _)
    · rename_i o hmeaning
      rw [letterMeaning?_eq_value_iff] at hmeaning
      have hnames := Names.letter hmeaning
      by_cases hglued : cs ≠ [] ∧ cs.head? ≠ some (.char '=')
      · refine ⟨o, .inl ⟨⟨cs⟩, ?_⟩⟩
        obtain ⟨as⟩ := a
        obtain rfl : as = _ := ha
        simpa [OsText.prepend] using Attached.glued (v := ⟨cs⟩) hmeaning hglued.1 hglued.2
      · refine ⟨o, forms_of_names hnames cs (by simpa using ha) ?_⟩
        rintro x tail rfl
        simpa using hglued

/-- `readOne` reads no other argument than `Attached` or `Alone` ones, apart from what is `Plain`
and can only be a value. -/
theorem forms_of_readOne (h : readOne k a = .ok k') :
    (∃ o, (∃ v, Attached a o v) ∨ Alone a o) ∨ Plain a := by
  obtain ⟨cs, hchars⟩ | ⟨c, cs, hchars, hc⟩ | hplain := arg_cases a
  · rw [readOne_long hchars] at h
    exact .inl (forms_of_readLong hchars h)
  · rw [readOne_letters hchars hc] at h
    exact .inl (forms_of_readLetters hchars h)
  · exact .inr hplain

/-! ## Settings that are held back -/

def assignAll (line : CommandLine) : List Setting → Except Stop CommandLine
  | [] => .ok line
  | (o, v) :: ss => assign line o v >>= fun line' => assignAll line' ss

theorem assignAll_append (line : CommandLine) (ss ts : List Setting) :
    assignAll line (ss ++ ts) = assignAll line ss >>= fun line' => assignAll line' ts := by
  induction ss generalizing line with
  | nil => rfl
  | cons s ss ih =>
    obtain ⟨o, v⟩ := s
    rw [List.cons_append, assignAll, assignAll]
    cases assign line o v with
    | error e => rfl
    | ok line' => exact ih line'

/-- The settings that a scan has met and not yet settled, by its `open?`, unless it waits for a
value. -/
inductive Held : Option (ValueOption × Option OsText) → List Setting → Prop
  | none : Held none []
  | last (o : ValueOption) (v : OsText) : Held (some (o, some v)) [(o, v)]

theorem settle_eq (h : Held k.open? ss) : settle k = assignAll k.line ss := by
  obtain ⟨line, _⟩ := k
  cases h with
  | none => rfl
  | last o v =>
    simp only [settle, assignAll]
    cases assign line o v <;> rfl

/-- An option with its value is settled at once, behind what is `Held`. -/
theorem meet_some (h : Held k.open? ss) :
    meet k o (some v) = assignAll k.line (ss ++ [(o, v)]) >>= fun line => .ok ⟨line, none⟩ := by
  rw [meet, settle_eq h, assignAll_append]
  cases assignAll k.line ss with
  | error e => rfl
  | ok line =>
    cases hv : assign line o v <;> simp only [assignAll, hv] <;> simp only [bind, Except.bind, hv]

/-- An option `o` without its value waits for it. -/
theorem meet_none (h : Held k.open? ss) :
    meet k o none = assignAll k.line ss >>= fun line => .ok ⟨line, some (o, none)⟩ := by
  rw [meet, settle_eq h]
  cases assignAll k.line ss <;> rfl

theorem held_of_settle (h : settle k = .ok line) : ∃ ss, Held k.open? ss := by
  rcases k with ⟨_, - | ⟨o, - | v⟩⟩
  · exact ⟨_, .none⟩
  · cases h
  · exact ⟨_, .last o v⟩

/-- What is met is waited for if its value is not `attached`. -/
theorem open?_of_meet {attached : Option OsText} (h : meet k o attached = .ok k') :
    (∃ ss, Held k.open? ss) ∧ k'.open? = if attached.isSome then none else some (o, none) := by
  unfold meet at h
  split at h
  · cases h
  · rename_i hsettle
    refine ⟨held_of_settle hsettle, ?_⟩
    split at h
    · cases h
      rfl
    · split at h
      · cases h
      · cases h
        rfl

/-- Only a value that `k.open?` waits for is read without an option. -/
theorem open?_of_readPlain (h : readPlain k a = .ok k') :
    ∃ o, k.open? = some (o, none) ∧ k'.open? = some (o, some a) := by
  unfold readPlain at h
  split at h
  · rename_i o hopen
    cases h
    exact ⟨o, hopen, rfl⟩
  · cases h

/-! ## Spelled settings -/

/-- **Reading what is spelled.** The options get their values one after another, those of `ts` that
are held back first. -/
theorem readAll_eq (h : Spelled args ss) (hk : Held k.open? ts) :
    readAll k args = assignAll k.line (ts ++ ss) := by
  induction h generalizing k ts with
  | nil => rw [List.append_nil, ← settle_eq hk, readAll.eq_def]
  | dashes =>
    rw [List.append_nil, ← settle_eq hk]
    rfl
  | @attached a v o args ss ha _ ih =>
    obtain ⟨hdashes, hone⟩ := readOne_attached (k := k) ha
    have hrest (line : CommandLine) : readAll ⟨line, none⟩ args = assignAll line ss :=
      ih (k := ⟨line, none⟩) .none
    have hsplit : assignAll k.line (ts ++ (o, v) :: ss) =
        assignAll k.line (ts ++ [(o, v)]) >>= fun line => assignAll line ss := by
      rw [List.append_cons, assignAll_append]
    rw [readAll_cons hdashes, hone, meet_some hk, hsplit]
    cases assignAll k.line (ts ++ [(o, v)]) with
    | error e => rfl
    | ok line => exact hrest line
  | @apart a v o args ss ha hv _ ih =>
    obtain ⟨hdashes, hone⟩ := readOne_alone (k := k) ha
    have hrest (line : CommandLine) :
        readAll ⟨line, some (o, some v)⟩ args = assignAll line ((o, v) :: ss) :=
      ih (k := ⟨line, some (o, some v)⟩) (.last o v)
    rw [readAll_cons hdashes, hone, meet_none hk, assignAll_append]
    cases assignAll k.line ts with
    | error e => rfl
    | ok line =>
      -- The value is held back until the next option is met, which `Held.last` says.
      change readAll ⟨line, some (o, none)⟩ (v :: args) = assignAll line ((o, v) :: ss)
      rw [readAll_cons hv.ne_dashes, readOne_plain hv, ← hrest]
      rfl

/-- What can be read on: settings that are `Spelled`, behind a value if one is waited for. -/
inductive Goes : Option (ValueOption × Option OsText) → List OsText → Prop
  | held {open? : Option (ValueOption × Option OsText)} {args : List OsText}
      {ss ts : List Setting} : Held open? ts → Spelled args ss → Goes open? args
  | waiting {o : ValueOption} {v : OsText} {args : List OsText} {ss : List Setting} : Plain v →
      Spelled args ss → Goes (some (o, none)) (v :: args)

/-- Whatever `readAll` reads to its end is spelled, by induction on `args` and by the form of the
first. -/
theorem goes_of_readAll (h : readAll k args = .ok line) : Goes k.open? args := by
  induction args generalizing k with
  | nil =>
    rw [readAll.eq_def] at h
    obtain ⟨ts, hk⟩ := held_of_settle h
    exact .held hk .nil
  | cons a args ih =>
    by_cases hdashes : a.chars = [.char '-', .char '-']
    · obtain rfl : a = .ofString "--" := by
        cases a
        exact congrArg OsText.mk hdashes
      cases args with
      | nil =>
        obtain ⟨ts, hk⟩ := held_of_settle h
        exact .held hk .dashes
      | cons b rest => cases h
    rw [readAll_cons hdashes] at h
    cases hone : readOne k a with
    | error e =>
      rw [hone] at h
      cases h
    | ok k' =>
      rw [hone] at h
      replace ih : Goes k'.open? args := ih h
      -- The form of the first argument says whether `k'` waits for a value, which the hypothesis
      -- `ih` on the rest needs.
      obtain ⟨o, ⟨v, ha⟩ | ha⟩ | ha := forms_of_readOne hone
      · rw [(readOne_attached ha).2] at hone
        obtain ⟨⟨ts, hk⟩, hopen⟩ := open?_of_meet hone
        rw [hopen] at ih
        cases ih with
        | held _ hargs => exact .held hk (.attached ha hargs)
      · rw [(readOne_alone ha).2] at hone
        obtain ⟨⟨ts, hk⟩, hopen⟩ := open?_of_meet hone
        rw [hopen] at ih
        cases ih with
        | held hk' _ => cases hk'
        | waiting hv hargs => exact .held hk (.apart ha hv hargs)
      · rw [readOne_plain ha] at hone
        obtain ⟨o, hk, hopen⟩ := open?_of_readPlain hone
        rw [hopen] at ih
        rw [hk]
        cases ih with
        | held _ hargs => exact .waiting ha hargs

theorem parse_eq (h : Spelled args ss) : parse args = assignAll {} ss :=
  readAll_eq (k := {}) h .none

theorem spelled_of_parse (h : parse args = .ok line) : ∃ ss, Spelled args ss := by
  cases goes_of_readAll h with
  | held _ hargs => exact ⟨_, hargs⟩

/-! ## Values -/

inductive Value where
  | text (s : String)
  | seconds (n : Nat)
  deriving DecidableEq, Repr

/-- The texts that an option takes, and what they ask for. A text with a hole is none of them. -/
inductive Takes : ValueOption → OsText → Value → Prop
  /-- Every address without holes. -/
  | addr (s : String) : Takes .addr (.ofString s) (.text s)
  /-- The numerals of 64 bits. -/
  | drainTimeoutSecs {s : String} {n : Nat} : Decimal.IsNumeral UInt64.size s.toList n →
      Takes .drainTimeoutSecs (.ofString s) (.seconds n)

def value? (line : CommandLine) : ValueOption → Option Value
  | .addr => line.addr.map .text
  | .drainTimeoutSecs => line.drainTimeoutSecs.map .seconds

theorem ext_value? (h : ∀ o, line.value? o = line'.value? o) : line = line' := by
  have haddr := h .addr
  have hdrain := h .drainTimeoutSecs
  obtain ⟨x, n⟩ := line
  obtain ⟨x', n'⟩ := line'
  cases x <;> cases x' <;> cases n <;> cases n' <;> simp_all [value?]

/-- `line'` is `line` with the setting of `o` to `v`, and nothing else changed. -/
structure Sets (line : CommandLine) (o : ValueOption) (v : OsText) (line' : CommandLine) :
    Prop where
  free : line.value? o = none
  taken : ∃ x, Takes o v x ∧ line'.value? o = some x
  kept : ∀ o', o' ≠ o → line'.value? o' = line.value? o'

theorem sets_of_assign (h : assign line o v = .ok line') : Sets line o v line' := by
  cases o with
  | addr =>
    simp only [assign] at h
    split at h
    · cases h
    rename_i hfree
    split at h
    · cases h
    rename_i s hs
    obtain rfl := OsText.toString?_eq_some_iff.mp hs
    cases h
    refine ⟨by simpa [value?] using hfree, ⟨.text s, .addr s, rfl⟩, ?_⟩
    rintro (_ | _) ho
    · contradiction
    · rfl
  | drainTimeoutSecs =>
    simp only [assign] at h
    split at h
    · cases h
    rename_i hfree
    split at h
    · cases h
    rename_i s hs
    obtain rfl := OsText.toString?_eq_some_iff.mp hs
    split at h
    · cases h
    rename_i n hn
    cases h
    refine ⟨by simpa [value?] using hfree,
      ⟨.seconds n, .drainTimeoutSecs (Decimal.read64_eq_ok_iff.mp hn), rfl⟩, ?_⟩
    rintro (_ | _) ho
    · rfl
    · contradiction

theorem exists_assign {x : Value} (hfree : line.value? o = none) (h : Takes o v x) :
    ∃ line', assign line o v = .ok line' ∧ line'.value? o = some x := by
  cases h with
  | addr s =>
    have hnone : line.addr = none := by simpa [value?] using hfree
    exact ⟨{ line with addr := some s }, by simp [assign, hnone], rfl⟩
  | @drainTimeoutSecs s n hn =>
    have hnone : line.drainTimeoutSecs = none := by simpa [value?] using hfree
    exact ⟨{ line with drainTimeoutSecs := some n },
      by simp [assign, hnone, Decimal.read64_eq_ok_iff.mpr hn], rfl⟩

/-- **One setting.** `assign` succeeds exactly if `Sets` can hold, that is, if `o` is free and takes
`v`. -/
theorem assign_eq_ok_iff : assign line o v = .ok line' ↔ Sets line o v line' := by
  refine ⟨sets_of_assign, fun h => ?_⟩
  obtain ⟨x, hx, hvalue⟩ := h.taken
  obtain ⟨l, hl, hlvalue⟩ := exists_assign h.free hx
  obtain rfl : l = line' := by
    refine ext_value? fun o' => ?_
    by_cases ho : o' = o
    · rw [ho, hlvalue, hvalue]
    · rw [(sets_of_assign hl).kept o' ho, h.kept o' ho]
  exact hl

/-- `line'` is `line` with the settings `ss`, and nothing else changed. -/
structure SetsAll (line : CommandLine) (ss : List Setting) (line' : CommandLine) : Prop where
  nodup : (ss.map Prod.fst).Nodup
  free : ∀ s ∈ ss, line.value? s.1 = none
  taken : ∀ s ∈ ss, ∃ x, Takes s.1 s.2 x ∧ line'.value? s.1 = some x
  kept : ∀ o, o ∉ ss.map Prod.fst → line'.value? o = line.value? o

theorem SetsAll.addr_eq_none (h : SetsAll {} ss line) (hno : ∀ v, (.addr, v) ∉ ss) :
    line.addr = none := by
  have hvalue := h.kept .addr (by simpa using hno)
  exact Option.map_eq_none_iff.mp hvalue

theorem SetsAll.drain_eq_none (h : SetsAll {} ss line) (hno : ∀ v, (.drainTimeoutSecs, v) ∉ ss) :
    line.drainTimeoutSecs = none := by
  have hvalue := h.kept .drainTimeoutSecs (by simpa using hno)
  exact Option.map_eq_none_iff.mp hvalue

theorem SetsAll.cons {l : CommandLine} (hone : Sets line o v l) (hall : SetsAll l ss line') :
    SetsAll line ((o, v) :: ss) line' := by
  obtain ⟨x, hx, hvalue⟩ := hone.taken
  -- What has been given a value cannot be given one again.
  have ho : ∀ s ∈ ss, s.1 ≠ o := by
    rintro s hs rfl
    rw [hall.free s hs] at hvalue
    cases hvalue
  have ho' : o ∉ ss.map Prod.fst := by simpa using fun v hv => ho (o, v) hv rfl
  refine ⟨List.nodup_cons.mpr ⟨ho', hall.nodup⟩, ?_, ?_, fun o' hmem => ?_⟩
  · rintro s (_ | ⟨_, hs⟩)
    · exact hone.free
    · rw [← hone.kept s.1 (ho s hs), hall.free s hs]
  · rintro s (_ | ⟨_, hs⟩)
    · exact ⟨x, hx, by rw [hall.kept o ho', hvalue]⟩
    · exact hall.taken s hs
  · simp only [List.map_cons, List.mem_cons, not_or] at hmem
    obtain ⟨hne, hmem⟩ := hmem
    rw [hall.kept o' hmem, hone.kept o' hne]

theorem SetsAll.uncons (h : SetsAll line ((o, v) :: ss) line') :
    ∃ l, Sets line o v l ∧ SetsAll l ss line' := by
  have hhead : (o, v) ∈ (o, v) :: ss := List.mem_cons_self
  obtain ⟨hnotMem, hnodup⟩ := List.nodup_cons.mp h.nodup
  obtain ⟨x, hx, hvalue⟩ := h.taken _ hhead
  obtain ⟨l, hl, hlvalue⟩ := exists_assign (h.free _ hhead) hx
  have hone := sets_of_assign hl
  refine ⟨l, hone, hnodup, fun s hs => ?_, fun s hs => h.taken s (.tail _ hs), fun o' hmem => ?_⟩
  · have hne : s.1 ≠ o := by
      intro heq
      apply hnotMem
      simpa only [heq] using List.mem_map_of_mem (f := Prod.fst) hs
    rw [hone.kept s.1 hne, h.free s (.tail _ hs)]
  · by_cases hne : o' = o
    · rw [hne, hvalue, hlvalue]
    · have hmem' : o' ∉ ((o, v) :: ss).map Prod.fst := by
        simpa only [List.map_cons, List.mem_cons, not_or] using ⟨hne, hmem⟩
      rw [h.kept o' hmem', hone.kept o' hne]

/-- **All settings.** By induction on them, as `SetsAll` is one of `Sets` and `SetsAll` for the
others. -/
theorem assignAll_eq_ok_iff : assignAll line ss = .ok line' ↔ SetsAll line ss line' := by
  induction ss generalizing line with
  | nil =>
    refine ⟨?_, fun h => ?_⟩
    · rintro ⟨⟩
      exact ⟨List.nodup_nil, by simp, by simp, fun _ _ => rfl⟩
    · rw [assignAll, ext_value? fun o => (h.kept o List.not_mem_nil).symm]
  | cons s ss ih =>
    obtain ⟨o, v⟩ := s
    rw [assignAll]
    constructor
    · intro h
      cases hassign : assign line o v with
      | error e =>
        rw [hassign] at h
        cases h
      | ok l =>
        rw [hassign] at h
        exact .cons (sets_of_assign hassign) (ih.mp h)
    · intro h
      obtain ⟨l, hone, hall⟩ := h.uncons
      rw [assign_eq_ok_iff.mpr hone]
      exact ih.mpr hall

/-- **Accepted command lines.** They are `Spelled` for some settings, of which no option has two,
and they ask for what these say and nothing else. -/
theorem parse_eq_ok_iff :
    parse args = .ok line ↔ ∃ ss, Spelled args ss ∧ SetsAll {} ss line := by
  constructor
  · intro h
    obtain ⟨ss, hargs⟩ := spelled_of_parse h
    exact ⟨ss, hargs, assignAll_eq_ok_iff.mp (parse_eq hargs ▸ h)⟩
  · rintro ⟨ss, hargs, h⟩
    rw [parse_eq hargs, assignAll_eq_ok_iff.mpr h]

end CommandLine

end Handoff
