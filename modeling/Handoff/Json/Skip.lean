import Handoff.Json.Number

/-!
# Values of JSON that are not kept

`skipValue` checks the form of one value of any depth. The lists and objects that are still open
stand on a stack, so depth costs no recursion of the reader.
-/

namespace Handoff

namespace Json

/-- A list or an object that is still open. -/
inductive Frame where
  | list
  /-- An object. -/
  | map
  deriving DecidableEq, Repr

/-- The fault of a text that ends inside the frame. -/
def Frame.atEnd : Frame → Cause
  | .list => .endOfList
  | .map => .endOfObject

/-- The fault of something other than a comma or the end behind an item. -/
def Frame.expectedComma : Frame → Cause
  | .list => .expectedCommaOrBracket
  | .map => .expectedCommaOrBrace

def Frame.close : Frame → Char
  | .list => ']'
  | .map => '\x7d'

/-- The rest of the literal `name`. -/
def readName (name : List Char) (s : List Char) : Reading Unit :=
  match name, s with
  | [], s => .ok ((), s)
  | _ :: _, [] => .error (Cause.endOfValue.here [])
  | n :: ns, c :: r => if c = n then readName ns r else .error (Cause.expectedName.behind s)

/-- The value at the front if it is no list and no object, or the `Frame` that it opens. -/
def skipSimple (s : List Char) : Reading (Option Frame) :=
  let done : Reading Unit → Reading (Option Frame)
    | .error f => .error f
    | .ok (_, r) => .ok (none, r)
  match s with
  | [] => .error (Cause.endOfValue.behind [])
  | c :: r =>
    if c = 'n' then done (readName ['u', 'l', 'l'] r)
    else if c = 't' then done (readName ['r', 'u', 'e'] r)
    else if c = 'f' then done (readName ['a', 'l', 's', 'e'] r)
    else if c = '"' then done (skipText r)
    else if c = '[' then .ok (some .list, r)
    else if c = '\x7b' then .ok (some .map, r)
    else if c = '-' ∨ isDigit c then done (skipNumber s)
    else .error (Cause.expectedValue.behind s)

/-- The key of a member and its colon. -/
def skipKey (s : List Char) : Reading Unit :=
  match skipBlanks s with
  | [] => .error (Cause.endOfObject.behind [])
  | c :: r =>
    if c = '"' then
      match skipText r with
      | .error f => .error f
      | .ok (_, r) =>
        match skipBlanks r with
        | [] => .error (Cause.endOfObject.behind [])
        | d :: r' => if d = ':' then .ok ((), r') else .error (Cause.expectedColon.behind (d :: r'))
    else .error (Cause.keyNotText.behind (c :: r))

/-- What comes before the next item of the frame: its key, in an object. -/
def Frame.skipLead (f : Frame) (s : List Char) : Reading Unit :=
  match f with
  | .list => .ok ((), s)
  | .map => skipKey s

theorem length_of_readName {name s r : List Char} {u : Unit} (h : readName name s = .ok (u, r)) :
    r.length ≤ s.length := by
  induction name generalizing s with
  | nil => simp only [readName, Except.ok.injEq, Prod.mk.injEq] at h; simp [h]
  | cons n ns ih =>
    cases s with
    | nil => cases h
    | cons c t =>
      simp only [readName] at h
      split at h
      · have := ih h
        simp only [List.length_cons]
        omega
      · cases h

theorem length_of_skipSimple {s r : List Char} {f : Option Frame}
    (h : skipSimple s = .ok (f, r)) : r.length < s.length := by
  unfold skipSimple at h
  split at h
  · cases h
  · rename_i c t
    have done : ∀ {x : Reading Unit},
        (∀ {u : Unit} {v : List Char}, x = .ok (u, v) → v.length < (c :: t).length) →
        (match x with
          | .error f => .error f
          | .ok (_, r) => .ok (none, r)) = (.ok (f, r) : Reading (Option Frame)) →
        r.length < (c :: t).length := by
      intro x hx h
      split at h
      · cases h
      · cases h; exact hx rfl
    have name : ∀ {n : List Char} {u : Unit} {v : List Char}, readName n t = .ok (u, v) →
        v.length < (c :: t).length := by
      intro n u v hv
      have := length_of_readName hv
      simp only [List.length_cons]
      omega
    split at h
    · exact done name h
    split at h
    · exact done name h
    split at h
    · exact done name h
    split at h
    · refine done (fun {u v} hv => ?_) h
      have := length_of_skipText hv
      simp only [List.length_cons]
      omega
    split at h
    · cases h; simp
    split at h
    · cases h; simp
    split at h
    · exact done length_of_skipNumber h
    · cases h

theorem length_of_skipKey {s r : List Char} {u : Unit} (h : skipKey s = .ok (u, r)) :
    r.length < s.length := by
  have hs := length_skipBlanks s
  unfold skipKey at h
  split at h
  · cases h
  · rename_i c t heq
    rw [heq] at hs
    split at h
    · split at h
      · cases h
      · rename_i t' ht
        have h₁ := length_of_skipText ht
        have h₂ := length_skipBlanks t'
        split at h
        · cases h
        · rename_i d v hd
          rw [hd] at h₂
          split at h
          · cases h
            simp only [List.length_cons] at hs h₂
            omega
          · cases h
    · cases h

theorem Frame.length_of_skipLead {f : Frame} {s r : List Char} {u : Unit}
    (h : f.skipLead s = .ok (u, r)) : r.length ≤ s.length := by
  cases f with
  | list => cases h; exact Nat.le_refl _
  | map => exact Nat.le_of_lt (length_of_skipKey h)

mutual

/-- One value, and then what the open frames of the `stack` still need. -/
def skipOpen (stack : List Frame) (s : List Char) : Reading Unit :=
  match h : skipSimple (skipBlanks s) with
  | .error f => .error f
  | .ok (none, r) =>
    have := length_of_skipSimple h
    have := length_skipBlanks s
    skipItems stack false r
  | .ok (some f, r) =>
    have := length_of_skipSimple h
    have := length_skipBlanks s
    skipItems (f :: stack) true r
termination_by 2 * s.length
decreasing_by all_goals omega

/-- What the open frames still need; `first` tells that the innermost one was just opened, so no
comma separates its next item. -/
def skipItems (stack : List Frame) (first : Bool) (s : List Char) : Reading Unit :=
  match stack with
  | [] => .ok ((), s)
  | f :: fs =>
    match h : skipBlanks s with
    | [] => .error (f.atEnd.behind [])
    | c :: r =>
      have := length_of_skipBlanks h
      if c = f.close then skipItems fs false r
      else if first then
        match hl : f.skipLead (c :: r) with
        | .error e => .error e
        | .ok (_, r') =>
          have : r'.length ≤ s.length := by
            have := Frame.length_of_skipLead hl
            simp only [List.length_cons] at this
            omega
          skipOpen (f :: fs) r'
      else if c = ',' then
        match hl : f.skipLead r with
        | .error e => .error e
        | .ok (_, r') =>
          have := Frame.length_of_skipLead hl
          skipOpen (f :: fs) r'
      else .error (f.expectedComma.behind (c :: r))
termination_by 2 * s.length + 1
decreasing_by all_goals omega

end

/-- Skipping goes forward; by induction on twice the number of unread characters, as `skipItems`
calls `skipOpen` on as many. -/
theorem length_of_skip (n : Nat) :
    (∀ {stack s r u}, 2 * s.length ≤ n → skipOpen stack s = .ok (u, r) →
      r.length < s.length) ∧
    (∀ {stack first s r u}, 2 * s.length + 1 ≤ n → skipItems stack first s = .ok (u, r) →
      r.length ≤ s.length) := by
  induction n with
  | zero =>
    refine ⟨fun {stack s r u} hn h => ?_, fun hn => by omega⟩
    have hs := length_skipBlanks s
    unfold skipOpen at h
    split at h
    · cases h
    all_goals
      rename_i ht
      have := length_of_skipSimple ht
      omega
  | succ n ih =>
    obtain ⟨ihOpen, ihItems⟩ := ih
    refine ⟨fun {stack s r u} hn h => ?_, fun {stack first s r u} hn h => ?_⟩
    · have hs := length_skipBlanks s
      unfold skipOpen at h
      split at h
      · cases h
      all_goals
        rename_i ht
        have h₁ := length_of_skipSimple ht
        have h₂ := ihItems (by omega) h
        omega
    · unfold skipItems at h
      split at h
      · cases h; exact Nat.le_refl _
      split at h
      · cases h
      rename_i ht
      have hs := length_of_skipBlanks ht
      split at h
      · have := ihItems (by omega) h
        omega
      split at h
      · split at h
        · cases h
        · rename_i hl
          have h₁ := Frame.length_of_skipLead hl
          simp only [List.length_cons] at h₁
          have h₂ := ihOpen (by omega) h
          omega
      split at h
      · split at h
        · cases h
        · rename_i hl
          have h₁ := Frame.length_of_skipLead hl
          have h₂ := ihOpen (by omega) h
          omega
      · cases h

/-- One value, checked but not kept. -/
def skipValue (s : List Char) : Reading Unit := skipOpen [] s

theorem length_of_skipValue {s r : List Char} {u : Unit} (h : skipValue s = .ok (u, r)) :
    r.length < s.length := (length_of_skip (2 * s.length)).1 (Nat.le_refl _) h

/-- The fault of a value that starts at the front and is not of the `wanted` type. The value is read
as far as its type shows, so a fault inside it comes first. -/
def wrongType (wanted : Wanted) (s : List Char) : Fault :=
  let name (found : Found) (rest : Reading Unit) : Fault :=
    match rest with
    | .error f => f
    | .ok (_, r) => (Cause.wrongType found wanted).here r
  match s with
  | [] => Cause.endOfValue.behind []
  | c :: r =>
    if c = 'n' then name .null (readName ['u', 'l', 'l'] r)
    else if c = 't' then name (.boolean true) (readName ['r', 'u', 'e'] r)
    else if c = 'f' then name (.boolean false) (readName ['a', 'l', 's', 'e'] r)
    else if c = '"' then
      match readText r with
      | .error f => f
      | .ok (cs, r) => (Cause.wrongType (.text cs) wanted).here r
    else if c = '[' then (Cause.wrongType .sequence wanted).here s
    else if c = '\x7b' then (Cause.wrongType .map wanted).here s
    else if c = '-' ∨ isDigit c then
      match readNumber s with
      | .error f => f
      | .ok (n, r) => (Cause.wrongType n.found wanted).here r
    else Cause.expectedValue.behind s

end Json

end Handoff
