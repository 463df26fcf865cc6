import Handoff.Text.Utf8

/-!
# Echoing lines

The bytes of a connection are cut behind each newline. A line is answered by a label and the line
itself, without its newline and one carriage return right before that; what stands behind the last
newline is answered as it is once the input ends. A line that is not well-formed UTF-8 ends the
connection: neither it nor what follows is answered.
-/

namespace Handoff

def newline : UInt8 := 10

def carriageReturn : UInt8 := 13

/-- Cuts bytes behind each `newline`: the whole lines with their newlines, and the rest. -/
def cutLines : List UInt8 → List (List UInt8) × List UInt8
  | [] => ([], [])
  | b :: bs =>
    let (lines, rest) := cutLines bs
    if b = newline then ([b] :: lines, rest)
    else
      match lines with
      | [] => ([], b :: rest)
      | l :: ls => ((b :: l) :: ls, rest)

/-- The `line` without its newline and one carriage return before that. A line without a newline is
left as it is. -/
def chomp (line : List UInt8) : List UInt8 :=
  match line.reverse with
  | [] => []
  | b :: bs =>
    if b = newline then
      match bs with
      | [] => []
      | c :: cs => if c = carriageReturn then cs.reverse else bs.reverse
    else line

/-- The state of the echo of one connection. -/
structure Echo where
  /-- What stands in front of each answer. -/
  label : List UInt8
  /-- The bytes behind the last newline. -/
  rest : List UInt8 := []
  /-- How many lines were answered. -/
  lines : Nat := 0
  /-- What was wrong with a line. -/
  fault : Option Utf8.Error := none
  deriving DecidableEq, Repr

namespace Echo

/-- Answers one `line`, unless the echo has a `fault`. What is wrong with a line is counted in the
line without its end. -/
def answer (e : Echo) (line : List UInt8) : Echo × List UInt8 :=
  if e.fault.isSome then (e, [])
  else
    match Utf8.check (chomp line) with
    | some error => ({ e with fault := some error }, [])
    | none => ({ e with lines := e.lines + 1 }, e.label ++ chomp line ++ [newline])

def answerAll (e : Echo) : List (List UInt8) → Echo × List UInt8
  | [] => (e, [])
  | l :: ls =>
    let (e', out) := e.answer l
    let (e'', out') := answerAll e' ls
    (e'', out ++ out')

/-- Reads more `bytes` and answers the lines that they complete. -/
def feed (e : Echo) (bytes : List UInt8) : Echo × List UInt8 :=
  let (lines, rest) := cutLines (e.rest ++ bytes)
  { e with rest := rest }.answerAll lines

/-- The input ends: the `rest` is the last line. -/
def finish (e : Echo) : Echo × List UInt8 :=
  if e.rest = [] then (e, []) else { e with rest := [] }.answer e.rest

end Echo

end Handoff
