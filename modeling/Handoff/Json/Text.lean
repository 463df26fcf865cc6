import Handoff.Json.Fault

/-!
# Quoted texts and blanks of JSON

`readText` gives the characters of a quoted text, `skipText` only checks its form: a lone half of a
surrogate pair is no fault there. Both start behind the opening quote and stop behind the closing
one, and `writeText` writes what `readText` reads.
-/

namespace Handoff

namespace Json

/-- What a reader returns: a value and the unread characters, or a fault. -/
abbrev Reading (α : Type) := Except Fault (α × List Char)

def isBlank (c : Char) : Bool := c == ' ' || c == '\t' || c == '\n' || c == '\r'

def skipBlanks (s : List Char) : List Char := s.dropWhile isBlank

def hexDigit? (c : Char) : Option Nat :=
  if '0' ≤ c ∧ c ≤ '9' then some (c.toNat - 48)
  else if 'a' ≤ c ∧ c ≤ 'f' then some (c.toNat - 87)
  else if 'A' ≤ c ∧ c ≤ 'F' then some (c.toNat - 55)
  else none

/-- The fault of four bytes that are no hexadecimal digits, or of a text too short for them. -/
def unitFault (s : List Char) : Fault :=
  if byteCount s < 4 then Cause.endOfText.here [] else ⟨.invalidEscape, s, 4⟩

/-- The 16-bit unit of the four hexadecimal digits at the front. -/
def readUnit (s : List Char) : Reading Nat :=
  match s with
  | a :: b :: c :: d :: r =>
    match hexDigit? a, hexDigit? b, hexDigit? c, hexDigit? d with
    | some a, some b, some c, some d => .ok (((a * 16 + b) * 16 + c) * 16 + d, r)
    | _, _, _, _ => .error (unitFault s)
  | _ => .error (unitFault s)

def isFirstHalf (n : Nat) : Bool := 0xD800 ≤ n && n ≤ 0xDBFF

def isSecondHalf (n : Nat) : Bool := 0xDC00 ≤ n && n ≤ 0xDFFF

/-- The character of the surrogate pair `n`, `m`. -/
def pairChar (n m : Nat) : Char := Char.ofNat ((n - 0xD800) * 0x400 + (m - 0xDC00) + 0x10000)

/-- The second half of the pair that starts with the unit `n`. -/
def readSecondHalf (n : Nat) (s : List Char) : Reading Char :=
  match s with
  | [] => .error (Cause.endOfText.here [])
  | '\\' :: r =>
    match r with
    | [] => .error (Cause.endOfText.here [])
    | 'u' :: r' =>
      match readUnit r' with
      | .error f => .error f
      | .ok (m, r'') =>
        if isSecondHalf m then .ok (pairChar n m, r'')
        else .error (Cause.loneSurrogate.here r'')
    | _ => .error (Cause.unpairedSurrogate.behind r)
  | _ => .error (Cause.unpairedSurrogate.behind s)

/-- The character of a short escape, by the letter behind the backslash. -/
def shortEscape? : Char → Option Char
  | '"' => some '"'
  | '\\' => some '\\'
  | '/' => some '/'
  | 'b' => some '\x08'
  | 'f' => some '\x0c'
  | 'n' => some '\n'
  | 'r' => some '\r'
  | 't' => some '\t'
  | _ => none

/-- The character of the escape behind a backslash. -/
def readEscape (s : List Char) : Reading Char :=
  match s with
  | [] => .error (Cause.endOfText.here [])
  | 'u' :: r =>
    match readUnit r with
    | .error f => .error f
    | .ok (n, r') =>
      if isSecondHalf n then .error (Cause.loneSurrogate.here r')
      else if isFirstHalf n then readSecondHalf n r'
      else .ok (Char.ofNat n, r')
  | c :: r =>
    match shortEscape? c with
    | some d => .ok (d, r)
    | none => .error (Cause.invalidEscape.behind s)

/-- The escape behind a backslash, checked but not read. -/
def skipEscape (s : List Char) : Reading Unit :=
  match s with
  | [] => .error (Cause.endOfText.here [])
  | 'u' :: r =>
    match readUnit r with
    | .error f => .error f
    | .ok (_, r') => .ok ((), r')
  | c :: r =>
    match shortEscape? c with
    | some _ => .ok ((), r)
    | none => .error (Cause.invalidEscape.behind s)

theorem length_of_readUnit {s r : List Char} {n : Nat} (h : readUnit s = .ok (n, r)) :
    r.length < s.length := by
  unfold readUnit at h
  split at h
  · split at h
    · cases h; simp; omega
    · cases h
  · cases h

theorem length_of_readSecondHalf {n : Nat} {s r : List Char} {c : Char}
    (h : readSecondHalf n s = .ok (c, r)) : r.length < s.length := by
  unfold readSecondHalf at h
  split at h
  · cases h
  · split at h
    · cases h
    · split at h
      · cases h
      · rename_i hu
        have := length_of_readUnit hu
        split at h
        · simp only [Except.ok.injEq, Prod.mk.injEq] at h
          simp only [← h.2, List.length_cons]
          omega
        · cases h
    · cases h
  · cases h

theorem length_of_readEscape {s r : List Char} {c : Char} (h : readEscape s = .ok (c, r)) :
    r.length < s.length := by
  unfold readEscape at h
  split at h
  · cases h
  · split at h
    · cases h
    · rename_i hu
      have h₁ := length_of_readUnit hu
      split at h
      · cases h
      · split at h
        · have := length_of_readSecondHalf h
          simp; omega
        · cases h; simp; omega
  · split at h
    · cases h; simp
    · cases h

theorem length_of_skipEscape {s r : List Char} {u : Unit} (h : skipEscape s = .ok (u, r)) :
    r.length < s.length := by
  unfold skipEscape at h
  split at h
  · cases h
  · split at h
    · cases h
    · rename_i hu
      have h₁ := length_of_readUnit hu
      cases h; simp; omega
  · split at h
    · cases h; simp
    · cases h

/-- The characters of a quoted text behind its opening quote. -/
def readText (s : List Char) : Reading (List Char) :=
  match s with
  | [] => .error (Cause.endOfText.here [])
  | '"' :: r => .ok ([], r)
  | '\\' :: r =>
    match h : readEscape r with
    | .error f => .error f
    | .ok (c, r') =>
      have := length_of_readEscape h
      match readText r' with
      | .error f => .error f
      | .ok (cs, r'') => .ok (c :: cs, r'')
  | c :: r =>
    if c < ' ' then .error (Cause.controlCharacter.behind s)
    else
      match readText r with
      | .error f => .error f
      | .ok (cs, r') => .ok (c :: cs, r')
termination_by s.length
decreasing_by all_goals simp_all; try omega

/-- A quoted text, checked but not read. -/
def skipText (s : List Char) : Reading Unit :=
  match s with
  | [] => .error (Cause.endOfText.here [])
  | '"' :: r => .ok ((), r)
  | '\\' :: r =>
    match h : skipEscape r with
    | .error f => .error f
    | .ok (_, r') =>
      have := length_of_skipEscape h
      skipText r'
  | c :: r => if c < ' ' then .error (Cause.controlCharacter.here s) else skipText r
termination_by s.length
decreasing_by all_goals simp_all; try omega

theorem length_of_readText {s r cs : List Char} (h : readText s = .ok (cs, r)) :
    r.length < s.length := by
  fun_induction readText s generalizing cs r with
  | case1 => cases h
  | case2 => cases h; simp
  | case3 => cases h
  | case4 => cases h
  | case5 t c t' he hl cs' t'' ht ih =>
    have := ih ht
    simp only [Except.ok.injEq, Prod.mk.injEq] at h
    simp only [← h.2, List.length_cons]
    omega
  | case6 => cases h
  | case7 => cases h
  | case8 c t _ _ _ cs' t' ht ih =>
    have := ih ht
    simp only [Except.ok.injEq, Prod.mk.injEq] at h
    simp only [← h.2, List.length_cons]
    omega

theorem length_of_skipText {s r : List Char} {u : Unit} (h : skipText s = .ok (u, r)) :
    r.length < s.length := by
  fun_induction skipText s with
  | case1 => cases h
  | case2 t => cases h; simp
  | case3 => cases h
  | case4 t _ t' ht hl ih =>
    have := ih h
    simp only [List.length_cons]
    omega
  | case5 => cases h
  | case6 c t _ _ _ ih =>
    have := ih h
    simp only [List.length_cons]
    omega

theorem length_skipBlanks (s : List Char) : (skipBlanks s).length ≤ s.length :=
  (List.dropWhile_sublist isBlank).length_le

theorem length_of_skipBlanks {s r : List Char} {c : Char} (h : skipBlanks s = c :: r) :
    r.length < s.length := by
  have := length_skipBlanks s
  simp only [h, List.length_cons] at this
  omega

/-- The lower-case hexadecimal digit of `n`, which is below sixteen. -/
def hexDigit (n : Nat) : Char := if n < 10 then Char.ofNat (48 + n) else Char.ofNat (87 + n)

/-- What a character becomes between quotes: the quote and the backslash and the characters below
the space are escaped, all others stand for themselves. -/
def writeChar (c : Char) : List Char :=
  if c = '"' then ['\\', '"']
  else if c = '\\' then ['\\', '\\']
  else if c = '\x08' then ['\\', 'b']
  else if c = '\x0c' then ['\\', 'f']
  else if c = '\n' then ['\\', 'n']
  else if c = '\r' then ['\\', 'r']
  else if c = '\t' then ['\\', 't']
  else if c < ' ' then
    ['\\', 'u', '0', '0', hexDigit (c.toNat / 16), hexDigit (c.toNat % 16)]
  else [c]

def writeText (cs : List Char) : List Char := '"' :: cs.flatMap writeChar ++ ['"']

end Json

end Handoff
