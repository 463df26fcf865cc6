import Handoff.Decimal.Unsigned
import Handoff.Text.OsText
import Handoff.Text.Terminal

/-!
# The command line

The server has two options that take a value and two flags that ask for a text. An option is given
by its long name, with the value behind `=` or as the next argument, or by its letter, with the
value right behind it, behind `=` or as the next argument; flags can be bundled by their letters.

An option that waits for its value, or whose value stands in an argument of its own, is settled when
the next known option or flag is met or at the end. Until then a fault of a later argument is
reported first.
-/

namespace Handoff

/-- An option that takes a value. -/
inductive ValueOption where
  | addr
  | drainTimeoutSecs
  deriving DecidableEq, Repr

def ValueOption.display : ValueOption → String
  | .addr => "--addr <ADDR>"
  | .drainTimeoutSecs => "--drain-timeout-secs <DRAIN_TIMEOUT_SECS>"

/-- A flag that asks for a text. -/
inductive TextFlag where
  | help
  | version
  deriving DecidableEq, Repr

def TextFlag.display : TextFlag → String
  | .help => "--help"
  | .version => "--version"

/-- What the command line asks for. -/
structure CommandLine where
  /-- The address, if it is given. -/
  addr : Option String := none
  /-- The drain timeout in seconds, if it is given. -/
  drainTimeoutSecs : Option Nat := none
  deriving DecidableEq, Repr

namespace CommandLine

/-- Why the server is not started. -/
inductive Stop where
  /-- The text of `flag` is asked for. -/
  | shown (flag : TextFlag)
  | unknownArgument (argument : String)
  | missingValue (option : ValueOption)
  | repeated (option : ValueOption)
  /-- The `value` cannot be read. -/
  | invalidValue (option : ValueOption) (value : String) (error : Decimal.NumeralError)
  | illFormed
  /-- A `flag` has a value. -/
  | unneededValue (flag : TextFlag) (value : String)
  deriving DecidableEq, Repr

def helpText : String :=
  "Line echo server that restarts without dropping its listener\n\n" ++
  "Usage: shed-echo [OPTIONS]\n\n" ++
  "Options:\n" ++
  "  -a, --addr <ADDR>\n" ++
  "          Bind address, e.g. 127.0.0.1:9000 or /run/echo.sock\n" ++
  "      --drain-timeout-secs <DRAIN_TIMEOUT_SECS>\n" ++
  "          Seconds to wait for in-flight connections before exiting\n" ++
  "  -h, --help\n" ++
  "          Print help\n" ++
  "  -V, --version\n" ++
  "          Print version\n"

def versionText : String := "shed-echo 0.1.0\n"

/-- The first line of `cs`, without a carriage return right before its newline. -/
def firstLine (cs : List Char) : List Char :=
  let line := cs.takeWhile (· ≠ '\n')
  if line.length < cs.length ∧ line.getLast? = some '\r' then line.dropLast else line

/-- What is wrong, in one line and perhaps more. Arguments are named as a terminal shows them, by
`Terminal.visibleText`. -/
def Stop.fault : Stop → String
  | .shown _ => ""
  | .unknownArgument a => s!"unexpected argument '{Terminal.visibleText a}' found"
  | .missingValue o => s!"a value is required for '{o.display}' but none was supplied"
  | .repeated o => s!"the argument '{o.display}' cannot be used multiple times"
  | .invalidValue o v e =>
    s!"invalid value '{Terminal.visibleText v}' for '{o.display}': {e.message}"
  | .illFormed => "invalid UTF-8 was detected in one or more arguments"
  | .unneededValue f v =>
    s!"unexpected value '{Terminal.visibleText v}' for '{f.display}' found; " ++
      "no more were expected"

/-- What is printed: the whole text that was asked for, or the first line of the error. -/
def Stop.message : Stop → String
  | .shown .help => helpText
  | .shown .version => versionText
  | s => String.ofList (firstLine s!"error: {s.fault}".toList)

def Stop.exitCode : Stop → Nat
  | .shown _ => 0
  | _ => 2

/-- What has been read of a command line: the options that are settled, and the one that is
`open?`. -/
structure Scan where
  /-- The options that are settled. -/
  line : CommandLine := {}
  /-- The option that is to be settled, with its value if that has been met. -/
  open? : Option (ValueOption × Option OsText) := none
  deriving DecidableEq, Repr

/-- What a name in an argument stands for. -/
inductive Meaning where
  | value (option : ValueOption)
  | text (flag : TextFlag)
  deriving DecidableEq, Repr

def longMeaning? (name : String) : Option Meaning :=
  if name = "addr" then some (.value .addr)
  else if name = "drain-timeout-secs" then some (.value .drainTimeoutSecs)
  else if name = "help" then some (.text .help)
  else if name = "version" then some (.text .version)
  else none

def letterMeaning? (c : Char) : Option Meaning :=
  if c = 'a' then some (.value .addr)
  else if c = 'h' then some (.text .help)
  else if c = 'V' then some (.text .version)
  else none

/-- Gives the option `o` its value `v`, which must be well formed. No option is given twice. -/
def assign (line : CommandLine) (o : ValueOption) (v : OsText) : Except Stop CommandLine :=
  match o with
  | .addr =>
    if line.addr.isSome then .error (.repeated o)
    else
      match v.toString? with
      | none => .error .illFormed
      | some s => .ok { line with addr := some s }
  | .drainTimeoutSecs =>
    if line.drainTimeoutSecs.isSome then .error (.repeated o)
    else
      match v.toString? with
      | none => .error .illFormed
      | some s =>
        match Decimal.read64 s with
        | .error e => .error (.invalidValue o s e)
        | .ok n => .ok { line with drainTimeoutSecs := some n }

/-- Settles the option that is `open?`. It must have met its value. -/
def settle (k : Scan) : Except Stop CommandLine :=
  match k.open? with
  | none => .ok k.line
  | some (o, none) => .error (.missingValue o)
  | some (o, some v) => assign k.line o v

/-- Meets the option `o`, with its value if that is `attached`. The one that was open before is
settled first. -/
def meet (k : Scan) (o : ValueOption) (attached : Option OsText) : Except Stop Scan :=
  match settle k with
  | .error e => .error e
  | .ok line =>
    match attached with
    | none => .ok ⟨line, some (o, none)⟩
    | some v =>
      match assign line o v with
      | .error e => .error e
      | .ok line' => .ok ⟨line', none⟩

/-- Meets the flag `f`, which ends the reading. -/
def meetFlag (k : Scan) (f : TextFlag) : Except Stop Scan :=
  match settle k with
  | .error e => .error e
  | .ok _ => .error (.shown f)

/-- Reads a long argument without its dashes: the name in front of the first `=`, and the value
behind it. -/
def readLong (k : Scan) (cs : List OsChar) : Except Stop Scan :=
  let name : OsText := ⟨cs.takeWhile (· ≠ .char '=')⟩
  let attached : Option OsText :=
    match cs.dropWhile (· ≠ .char '=') with
    | [] => none
    | _ :: v => some ⟨v⟩
  match name.toString?.bind longMeaning? with
  | none => .error (.unknownArgument s!"--{name.display}")
  | some (.value o) => meet k o attached
  | some (.text f) =>
    match attached with
    | none => meetFlag k f
    | some v => .error (.unneededValue f v.display)

/-- Reads the letters of a short argument. A flag ends the reading, so only the first letter
matters, and what follows the letter of an option is its value. -/
def readLetters (k : Scan) (cs : List OsChar) : Except Stop Scan :=
  match cs with
  | [] => .ok k
  | .hole _ :: _ => .error (.unknownArgument s!"-{(OsText.mk cs).display}")
  | .char c :: rest =>
    match letterMeaning? c with
    | none => .error (.unknownArgument s!"-{c}")
    | some (.text f) => meetFlag k f
    | some (.value o) =>
      match rest with
      | [] => meet k o none
      | .char '=' :: v => meet k o (some ⟨v⟩)
      | v => meet k o (some ⟨v⟩)

/-- Reads `a`, which is neither an option nor a flag: the value of the open option, if that waits
for one. -/
def readPlain (k : Scan) (a : OsText) : Except Stop Scan :=
  match k.open? with
  | some (o, none) => .ok { k with open? := some (o, some a) }
  | _ => .error (.unknownArgument a.display)

/-- Reads the arguments one by one. Behind `--` no option can follow and nothing else is known. -/
def readAll (k : Scan) : List OsText → Except Stop CommandLine
  | [] => settle k
  | a :: rest =>
    match a.chars with
    | [.char '-', .char '-'] =>
      match rest with
      | [] => settle k
      | b :: _ => .error (.unknownArgument b.display)
    | .char '-' :: .char '-' :: cs =>
      match readLong k cs with
      | .error e => .error e
      | .ok k' => readAll k' rest
    | .char '-' :: c :: cs =>
      match readLetters k (c :: cs) with
      | .error e => .error e
      | .ok k' => readAll k' rest
    | _ =>
      match readPlain k a with
      | .error e => .error e
      | .ok k' => readAll k' rest

/-- Reads the arguments behind the name of the program. -/
def parse (args : List OsText) : Except Stop CommandLine := readAll {} args

end CommandLine

end Handoff
