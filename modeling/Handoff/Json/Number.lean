import Handoff.Decimal.Unsigned
import Handoff.Json.Text

/-!
# Numbers of JSON

A numeral is scanned into its parts first and given a value afterwards, so form and value are
separate: `Numeral.scan` knows the grammar, `Numeral.value` the range.

A numeral without fraction and exponent whose value fits 64 bits, with or without sign, is an
integer. Every other numeral is a double, and so is minus zero. Its digits are gathered in a
significand for as long as it stays below `2 ^ 64`; digits that no longer fit only move the scale,
and the significand is then multiplied or divided once by a power of ten.
-/

namespace Handoff

namespace Json

def isDigit (c : Char) : Bool := '0' ≤ c && c ≤ '9'

def digitValue (c : Char) : Nat := c.toNat - 48

/-- The parts of a numeral. -/
structure Numeral where
  /-- Whether a minus sign stands in front. -/
  negative : Bool
  /-- The digits before the point. -/
  whole : List Char
  /-- The digits behind the point; none if there is no point. -/
  fraction : List Char
  /-- Whether the exponent is negative, and its digits, if there is an exponent. -/
  exponent : Option (Bool × List Char)
  deriving DecidableEq, Repr

/-- The value of a numeral. -/
inductive Number where
  | integer (n : Int)
  | floating (x : Float)

def Number.found : Number → Found
  | .integer n => .integer n
  | .floating x => .floating x

namespace Numeral

/-- The digits at the front of `s`, and what follows them. -/
def spanDigits (s : List Char) : List Char × List Char :=
  (s.takeWhile isDigit, s.dropWhile isDigit)

/-- The digits before the point: one zero, or digits that start with another one; `atEnd` as for
`scan`. -/
def scanWhole (atEnd : Cause) (s : List Char) : Reading (List Char) :=
  match s with
  | [] => .error (atEnd.here [])
  | c :: r =>
    if c = '0' then
      match r with
      | [] => .ok (['0'], [])
      | d :: _ => if isDigit d then .error (Cause.invalidNumber.behind r) else .ok (['0'], r)
    else if isDigit c then .ok (spanDigits s)
    else .error (Cause.invalidNumber.behind s)

/-- The digits behind the point, if a point comes next. -/
def scanFraction (atEnd : Cause) (s : List Char) : Reading (List Char) :=
  match s with
  | '.' :: r =>
    match spanDigits r with
    | ([], []) => .error (atEnd.here [])
    | ([], r') => .error (Cause.invalidNumber.behind r')
    | (ds, r') => .ok (ds, r')
  | _ => .ok ([], s)

/-- Whether a minus sign comes next, and what follows the sign. -/
def scanSign (s : List Char) : Bool × List Char :=
  match s with
  | '+' :: r => (false, r)
  | '-' :: r => (true, r)
  | _ => (false, s)

/-- The exponent, if its mark comes next. -/
def scanExponent (atEnd : Cause) (s : List Char) : Reading (Option (Bool × List Char)) :=
  match s with
  | [] => .ok (none, [])
  | c :: r =>
    if c = 'e' ∨ c = 'E' then
      let (negative, r) := scanSign r
      match r with
      | [] => .error (atEnd.here [])
      | d :: _ =>
        if isDigit d then
          let (ds, r') := spanDigits r
          .ok (some (negative, ds), r')
        else .error (Cause.invalidNumber.behind r)
    else .ok (none, s)

/-- The numeral at the front; `atEnd` is the cause reported where the text ends too early. -/
def scan (atEnd : Cause) (s : List Char) : Reading Numeral :=
  let (negative, s) := match s with
    | '-' :: r => (true, r)
    | _ => (false, s)
  match scanWhole atEnd s with
  | .error f => .error f
  | .ok (whole, s) =>
    match scanFraction atEnd s with
    | .error f => .error f
    | .ok (fraction, s) =>
      match scanExponent atEnd s with
      | .error f => .error f
      | .ok (exponent, s) => .ok (⟨negative, whole, fraction, exponent⟩, s)

theorem length_of_scanWhole {e : Cause} {s r ds : List Char} (h : scanWhole e s = .ok (ds, r)) :
    r.length < s.length := by
  unfold scanWhole at h
  split at h
  · cases h
  · rename_i c t
    split at h
    · split at h
      · cases h; simp
      · split at h
        · cases h
        · cases h; simp
    · split at h
      · rename_i hc
        simp only [spanDigits, Except.ok.injEq, Prod.mk.injEq] at h
        rw [← h.2, List.dropWhile_cons_of_pos hc]
        have := (List.dropWhile_sublist (l := t) isDigit).length_le
        simp only [List.length_cons]
        omega
      · cases h

theorem length_of_scanFraction {e : Cause} {s r ds : List Char}
    (h : scanFraction e s = .ok (ds, r)) : r.length ≤ s.length := by
  unfold scanFraction at h
  split at h
  · rename_i t
    have := (List.dropWhile_sublist (l := t) isDigit).length_le
    simp only [spanDigits] at h
    split at h
    · cases h
    · cases h
    · rename_i hd
      simp only [Except.ok.injEq, Prod.mk.injEq] at h hd
      rw [← h.2, ← hd.2, List.length_cons]
      omega
  · cases h; simp

theorem length_scanSign (s : List Char) : (scanSign s).2.length ≤ s.length := by
  unfold scanSign
  split <;> simp

theorem length_of_scanExponent {e : Cause} {s r : List Char} {x : Option (Bool × List Char)}
    (h : scanExponent e s = .ok (x, r)) : r.length ≤ s.length := by
  unfold scanExponent at h
  split at h
  · cases h; simp
  · rename_i c t
    split at h
    · have hs := length_scanSign t
      generalize scanSign t = p at h hs
      obtain ⟨b, u⟩ := p
      simp only at h hs
      split at h
      · cases h
      · rename_i d v
        split at h
        · simp only [spanDigits, Except.ok.injEq, Prod.mk.injEq] at h
          have := (List.dropWhile_sublist (l := d :: v) isDigit).length_le
          rw [← h.2, List.length_cons]
          omega
        · cases h
    · cases h; simp

theorem length_of_scan {e : Cause} {s r : List Char} {n : Numeral} (h : scan e s = .ok (n, r)) :
    r.length < s.length := by
  unfold scan at h
  have key : ∀ {b : Bool} {t : List Char}, t.length ≤ s.length →
      (match scanWhole e t with
        | .error f => .error f
        | .ok (whole, s) =>
          match scanFraction e s with
          | .error f => .error f
          | .ok (fraction, s) =>
            match scanExponent e s with
            | .error f => .error f
            | .ok (exponent, s) => .ok (⟨b, whole, fraction, exponent⟩, s)) =
        (.ok (n, r) : Reading Numeral) → r.length < s.length := by
    intro b t ht h
    split at h
    · cases h
    · rename_i h₁
      split at h
      · cases h
      · rename_i h₂
        split at h
        · cases h
        · rename_i h₃
          have := length_of_scanWhole h₁
          have := length_of_scanFraction h₂
          have := length_of_scanExponent h₃
          simp only [Except.ok.injEq, Prod.mk.injEq] at h
          rw [← h.2]
          omega
  split at h
  · rename_i p b t heq
    split at heq
    · cases heq
      exact key (by simp) h
    · cases heq
      exact key (Nat.le_refl _) h

/-- Adds digits to a significand while it stays below `2 ^ 64`: the significand and the digits that
no longer fit. -/
def absorb (n : Nat) : List Char → Nat × List Char
  | [] => (n, [])
  | c :: cs =>
    if n * 10 + digitValue c < UInt64.size then absorb (n * 10 + digitValue c) cs else (n, c :: cs)

/-- The value of an exponent whose digits follow those of value `n`, or the digits behind the one
with which it leaves 31 bits. -/
def readExponent (n : Nat) : List Char → Except (List Char) Nat
  | [] => .ok n
  | c :: cs =>
    if n * 10 + digitValue c < 2147483648 then readExponent (n * 10 + digitValue c) cs
    else .error cs

def powerOfTen (k : Nat) : Float := Float.ofScientific 1 false k

/-- The double `x` scaled by `10 ^ e`, or `none` if it is out of range. Far below one the scale is
applied in steps of `10 ^ 308` until nothing is left of the value. -/
def scale (x : Float) (e : Int) : Option Float :=
  if e.natAbs ≤ 308 then
    if 0 ≤ e then
      let y := x * powerOfTen e.natAbs
      if y.isInf then none else some y
    else some (x / powerOfTen e.natAbs)
  else if x == 0 then some x
  else if 0 ≤ e then none
  else scale (x / powerOfTen 308) (e + 308)
termination_by e.natAbs

/-- The double of the significand `n` and the scale `e`. -/
def double (negative : Bool) (n : Nat) (e : Int) (rest : List Char) : Reading Number :=
  match scale (Float.ofScientific n false 0) e with
  | none => .error (Cause.numberOutOfRange.here rest)
  | some x => .ok (.floating (if negative then -x else x), rest)

/-- The value of a numeral; `rest` is what follows it. -/
def value (n : Numeral) (rest : List Char) : Reading Number :=
  let (whole, excess) := absorb 0 n.whole
  match excess, n.fraction, n.exponent with
  | [], [], none =>
    if n.negative then
      if whole = 0 ∨ 9223372036854775808 < whole then
        .ok (.floating (-(Float.ofScientific whole false 0)), rest)
      else .ok (.integer (-whole), rest)
    else .ok (.integer whole, rest)
  | _, _, _ =>
    let (all, left) := absorb whole n.fraction
    let shift : Int := excess.length - (n.fraction.length - left.length : Nat)
    match n.exponent with
    | none => double n.negative all shift rest
    | some (down, ds) =>
      match readExponent 0 ds with
      | .ok e => double n.negative all (if down then shift - e else shift + e) rest
      | .error unread =>
        if all ≠ 0 ∧ ¬ down then .error (Cause.numberOutOfRange.here (unread ++ rest))
        else .ok (.floating (if n.negative then -0.0 else 0.0), rest)

theorem rest_of_double {b : Bool} {n : Nat} {e : Int} {s r : List Char} {x : Number}
    (h : double b n e s = .ok (x, r)) : r = s := by
  unfold double at h
  split at h
  · cases h
  · simp only [Except.ok.injEq, Prod.mk.injEq] at h
    exact h.2.symm

theorem rest_of_value {n : Numeral} {s r : List Char} {x : Number} (h : n.value s = .ok (x, r)) :
    r = s := by
  unfold value at h
  simp only at h
  split at h
  · split at h
    · split at h <;> simp only [Except.ok.injEq, Prod.mk.injEq] at h <;> exact h.2.symm
    · simp only [Except.ok.injEq, Prod.mk.injEq] at h
      exact h.2.symm
  · split at h
    · exact rest_of_double h
    · split at h
      · exact rest_of_double h
      · split at h
        · cases h
        · simp only [Except.ok.injEq, Prod.mk.injEq] at h
          exact h.2.symm

end Numeral

def readNumber (s : List Char) : Reading Number :=
  match Numeral.scan .endOfValue s with
  | .error f => .error f
  | .ok (n, r) => n.value r

/-- The number at the front, checked but not read: its value may be out of range. -/
def skipNumber (s : List Char) : Reading Unit :=
  match Numeral.scan .invalidNumber s with
  | .error f => .error f
  | .ok (_, r) => .ok ((), r)

theorem length_of_readNumber {s r : List Char} {x : Number} (h : readNumber s = .ok (x, r)) :
    r.length < s.length := by
  unfold readNumber at h
  split at h
  · cases h
  · rename_i hn
    rw [Numeral.rest_of_value h]
    exact Numeral.length_of_scan hn

theorem length_of_skipNumber {s r : List Char} {u : Unit} (h : skipNumber s = .ok (u, r)) :
    r.length < s.length := by
  unfold skipNumber at h
  split at h
  · cases h
  · rename_i hn
    cases h
    exact Numeral.length_of_scan hn

end Json

end Handoff
