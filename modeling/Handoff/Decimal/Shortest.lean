/-!
# Shortest decimals

The fewest decimal digits that read back to a given double. A finite double is a whole number of
units of a power of two, and the reals that round to it form an interval, whose ends belong to it
exactly when that whole number is even. The digits are found by exact arithmetic on naturals: for
each count of digits the two neighbours of the value on that decimal grid are tried, the first
count with a neighbour in the interval wins, of two neighbours the nearer, and of two equally near
the even one.
-/

namespace Handoff

namespace Decimal

/-- The magnitude of a finite double, `mantissa * 2 ^ exponent`. -/
structure Binary where
  /-- The whole number of units. -/
  mantissa : Nat
  /-- The unit is this power of two. -/
  exponent : Int
  /-- The double below is half as far away as the double above. -/
  narrowBelow : Bool
  deriving DecidableEq, Repr

/-- The magnitude in the bits `b` of a finite double. -/
def Binary.ofBits (b : UInt64) : Binary :=
  let e := ((b >>> 52) &&& 0x7FF).toNat
  let f := (b &&& 0xFFFFFFFFFFFFF).toNat
  if e = 0 then ⟨f, -1074, false⟩
  else ⟨0x10000000000000 + f, (e : Int) - 1075, f == 0 && e > 1⟩

/-- A decimal, `digits * 10 ^ exponent`. -/
structure Scaled where
  /-- The digits as a number. -/
  digits : Nat
  /-- The unit is this power of ten. -/
  exponent : Int
  deriving DecidableEq, Repr

/-- Compares a decimal with `n * 2 ^ j`. -/
def Scaled.compareBinary (d : Scaled) (n : Nat) (j : Int) : Ordering :=
  compare (d.digits * Nat.pow 10 d.exponent.toNat * Nat.pow 2 (-j).toNat)
    (n * Nat.pow 2 j.toNat * Nat.pow 10 (-d.exponent).toNat)

/-- Whether a decimal lies among the reals that round to `x`. -/
def Binary.readsBack (x : Binary) (d : Scaled) : Bool :=
  let below := if x.narrowBelow then 4 * x.mantissa - 1 else 4 * x.mantissa - 2
  let ends := x.mantissa % 2 == 0
  let atLow := d.compareBinary below (x.exponent - 2)
  let atHigh := d.compareBinary (4 * x.mantissa + 2) (x.exponent - 2)
  (atLow == .gt || (ends && atLow == .eq)) && (atHigh == .lt || (ends && atHigh == .eq))

/-- The numerator of the value of `x`. -/
def Binary.num (x : Binary) : Nat := x.mantissa * Nat.pow 2 x.exponent.toNat

/-- The denominator of the value of `x`. -/
def Binary.den (x : Binary) : Nat := Nat.pow 2 (-x.exponent).toNat

def digitCount (n : Nat) : Nat := (Nat.toDigits 10 n).length

/-- The least `k` for which a positive value is below `10 ^ k`. -/
def Binary.magnitude (x : Binary) : Int :=
  if x.den ≤ x.num then digitCount (x.num / x.den)
  else 1 - (digitCount ((x.den - 1) / x.num) : Int)

/-- The decimal of the grid `10 ^ e` that reads back to `x` and lies nearest to it, if a neighbour
of `x` on the grid reads back. -/
def Binary.onGrid? (x : Binary) (e : Int) : Option Scaled :=
  let num := x.num * Nat.pow 10 (-e).toNat
  let den := x.den * Nat.pow 10 e.toNat
  let low : Scaled := ⟨num / den, e⟩
  let high : Scaled := ⟨num / den + 1, e⟩
  match x.readsBack low, x.readsBack high with
  | false, false => none
  | true, false => some low
  | false, true => some high
  | true, true =>
    match compare (2 * (num % den)) den with
    | .lt => some low
    | .gt => some high
    | .eq => some (if low.digits % 2 = 0 then low else high)

/-- The shortest decimal of a positive value. Seventeen digits are enough for every double; the
value itself stands behind the search all the same. -/
def Binary.shortest (x : Binary) : Scaled :=
  let k := x.magnitude
  ((List.range 17).findSome? fun (n : Nat) => x.onGrid? (k - (n + 1))).getD
    ⟨x.num * Nat.pow 5 (-x.exponent).toNat, -((-x.exponent).toNat : Int)⟩

/-- The text of digits that stand for `0.digits * 10 ^ point`: positional if the leading digit
stands for at least `10 ^ -5` and at most `10 ^ 15`, and otherwise with a signed exponent. A
positional whole number keeps one zero after the point. -/
def layout (digits : List Char) (point : Int) : List Char :=
  let count : Int := digits.length
  if -5 < point ∧ point ≤ 16 then
    if point ≤ 0 then ['0', '.'] ++ List.replicate (-point).toNat '0' ++ digits
    else if count ≤ point then digits ++ List.replicate (point - count).toNat '0' ++ ['.', '0']
    else digits.take point.toNat ++ '.' :: digits.drop point.toNat
  else
    let fraction := match digits.tail with
      | [] => []
      | ds => '.' :: ds
    let sign := if point - 1 < 0 then '-' else '+'
    digits.take 1 ++ fraction ++ 'e' :: sign :: Nat.toDigits 10 (point - 1).natAbs

/-- The digits of `n` without the zeros at the end. -/
def significant (n : Nat) : List Char :=
  ((Nat.toDigits 10 n).reverse.dropWhile (· == '0')).reverse

/-- The text of the finite double `x`. -/
def ofFloat (x : Float) : String :=
  let b := Binary.ofBits x.toBits
  let sign := if x.toBits >>> 63 == 1 then ['-'] else []
  if b.mantissa = 0 then String.ofList (sign ++ ['0', '.', '0'])
  else
    let d := b.shortest
    String.ofList (sign ++ layout (significant d.digits) (d.exponent + digitCount d.digits))

end Decimal

end Handoff
