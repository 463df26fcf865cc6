/-!
# Terminal control sequences

A text may hold sequences that a terminal obeys instead of showing them: an escape character opens
one, and what follows decides how it ends. `Terminal.visible` is the text that is left when they are
taken out, together with the control characters that stand outside of them.

* `Mode.next`: the sequence that is open behind one more character.
* `Mode.shows`: whether that character is shown.
* `visible_of_shows`: a text without sequences and control characters is left as it is.
* `visible_visible`: nothing is left to take out.
-/

namespace Handoff

namespace Terminal

/-- The sequence that is open at a place of a text. -/
inductive Mode where
  /-- None. -/
  | ground
  /-- An escape character was met. -/
  | escape
  /-- A short sequence that ends with its next letter. -/
  | short
  /-- A control sequence, which ends with a letter behind its numbers. -/
  | control
  /-- A command to the system, which ends with a bell. -/
  | command
  /-- A message to the device. -/
  | device
  /-- A message to the device, of which a number was met. -/
  | deviceNumber
  /-- A message to the device, of which the mark in front of its last letter was met. -/
  | deviceMark
  /-- A string without meaning, which ends with the string terminator. -/
  | string
  deriving DecidableEq, Repr

def escapeChar : Char := '\x1b'

/-- The two characters that break a sequence off. -/
def isCancel (c : Char) : Bool := c = '\x18' || c = '\x1a'

/-- The control characters that are blanks. -/
def isControlBlank (c : Char) : Bool := c = '\t' || c = '\n' || c = '\x0c' || c = '\r'

/-- The marks in front of the last letter of a sequence. -/
def isMark (c : Char) : Bool := ' ' ≤ c && c ≤ '/'

/-- The digits and what separates numbers. -/
def isNumeral (c : Char) : Bool := '0' ≤ c && c ≤ ';'

/-- The signs of a private use of numbers. -/
def isPrivate (c : Char) : Bool := '<' ≤ c && c ≤ '?'

/-- The last letters of sequences. -/
def isFinal (c : Char) : Bool := '@' ≤ c && c ≤ '~'

/-- Whether the string terminator `9C` is among the bytes of a character behind the first one, each
of which holds six bits. -/
def holdsTerminator (c : Char) : Bool :=
  let n := c.toNat
  (0x80 ≤ n && n % 0x40 == 0x1C) || (0x800 ≤ n && n / 0x40 % 0x40 == 0x1C) ||
    (0x10000 ≤ n && n / 0x1000 % 0x40 == 0x1C)

/-- The mode behind the letter `c` that follows an `escapeChar`. -/
def opened (c : Char) : Mode :=
  if c = '[' then .control
  else if c = ']' then .command
  else if c = 'P' then .device
  else if c = 'X' ∨ c = '^' ∨ c = '_' then .string
  else .ground

/-- The mode behind one more character `c`. A blank breaks off a sequence whose end is a letter. -/
def Mode.next (m : Mode) (c : Char) : Mode :=
  if c = escapeChar then .escape
  else if isCancel c then .ground
  else
    match m with
    | .ground => .ground
    | .escape =>
      if isControlBlank c then .ground
      else if isMark c then .short
      else if isNumeral c || isPrivate c || isFinal c then opened c
      else .escape
    | .short =>
      if isControlBlank c || isNumeral c || isPrivate c || isFinal c then .ground else .short
    | .control => if isControlBlank c || isFinal c then .ground else .control
    | .command => if c = '\x07' then .ground else .command
    | .device =>
      if isMark c then .deviceMark
      else if isNumeral c || isPrivate c then .deviceNumber
      else if isFinal c then .string
      else .device
    | .deviceNumber =>
      if isMark c then .deviceMark
      else if isPrivate c || isFinal c then .string
      else .deviceNumber
    | .deviceMark =>
      if isNumeral c || isPrivate c || isFinal c then .string else .deviceMark
    | .string => if holdsTerminator c then .ground else .string

/-- Whether `c` is shown. In the `ground` mode all are but control characters, of which only the
blanks are shown; these are also shown when they break a sequence off. -/
def Mode.shows (m : Mode) (c : Char) : Bool :=
  match m with
  | .ground => (' ' ≤ c && c ≠ '\x7f') || isControlBlank c
  | .escape | .short | .control => isControlBlank c
  | _ => false

/-- What is shown of the text behind the mode `m`. -/
def visibleFrom (m : Mode) : List Char → List Char
  | [] => []
  | c :: cs => if m.shows c then c :: visibleFrom (m.next c) cs else visibleFrom (m.next c) cs

/-- What is shown of a text. -/
def visible (cs : List Char) : List Char := visibleFrom .ground cs

/-- What is shown of a string. -/
def visibleText (s : String) : String := String.ofList (visible s.toList)

/-- A character that is shown is shown in the `ground` mode. -/
theorem shows_ground {m : Mode} {c : Char} (h : m.shows c) : Mode.ground.shows c := by
  cases m <;> simp_all [Mode.shows]

/-- No sequence is open behind a character that is shown. -/
theorem next_of_shows {m : Mode} {c : Char} (h : m.shows c) : m.next c = .ground := by
  have he : c ≠ escapeChar := by
    rintro rfl
    cases m <;> simp [Mode.shows, escapeChar, isControlBlank] at h
  cases m <;> simp_all [Mode.shows, Mode.next]

/-- What `visibleFrom` leaves is shown in the `ground` mode. -/
theorem shows_of_mem_visibleFrom {m : Mode} {cs : List Char} {c : Char}
    (h : c ∈ visibleFrom m cs) : Mode.ground.shows c := by
  induction cs generalizing m with
  | nil => simp [visibleFrom] at h
  | cons d cs ih =>
    rw [visibleFrom] at h
    split at h
    · next hd =>
      rcases List.mem_cons.1 h with rfl | h
      · exact shows_ground hd
      · exact ih h
    · exact ih h

/-- A text without sequences and control characters is left as it is. -/
theorem visible_of_shows {cs : List Char} (h : ∀ c ∈ cs, Mode.ground.shows c) :
    visible cs = cs := by
  unfold visible
  induction cs with
  | nil => rfl
  | cons c cs ih =>
    have hc := h c List.mem_cons_self
    rw [visibleFrom, if_pos hc, next_of_shows hc, ih fun d hd => h d (List.mem_cons_of_mem c hd)]

/-- Nothing is left to take out: `visible` is idempotent. -/
theorem visible_visible (cs : List Char) : visible (visible cs) = visible cs :=
  visible_of_shows fun _ => shows_of_mem_visibleFrom

end Terminal

end Handoff
