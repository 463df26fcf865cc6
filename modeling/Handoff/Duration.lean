/-!
# Durations

A duration is a number of milliseconds. Its text uses the largest unit of which it has at least
one, with as many decimal places as are needed.
-/

namespace Handoff

/-- A duration in milliseconds. -/
structure Duration where
  millis : Nat
  deriving DecidableEq, Repr

namespace Duration

def ofSeconds (n : Nat) : Duration := ⟨n * 1000⟩

def seconds (d : Duration) : Nat := d.millis / 1000

def subsecondNanos (d : Duration) : Nat := d.millis % 1000 * 1000000

/-- The decimal places of `n` thousandths, without zeros at the end. -/
def places (n : Nat) : List Char :=
  let digits := [n / 100, n / 10 % 10, n % 10].map fun d => Char.ofNat (48 + d)
  (digits.reverse.dropWhile (· == '0')).reverse

def display (d : Duration) : String :=
  if d.millis = 0 then "0ns"
  else if d.millis < 1000 then s!"{d.millis}ms"
  else
    match places (d.millis % 1000) with
    | [] => s!"{d.seconds}s"
    | ds => s!"{d.seconds}.{String.ofList ds}s"

end Duration

end Handoff
