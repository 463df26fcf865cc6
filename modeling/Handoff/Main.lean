import Handoff.Program

/-!
# The command

Runs the server on a machine of its own, on which it is the only process, without files and with the
network `Network.isolated`, and serves the standard input as its one connection. The log goes to the
standard error.
-/

namespace Handoff

def serverVariables : List String :=
  [listenerVariable, Config.addrVariable, Config.drainTimeoutVariable]

/-- The `serverVariables` that are set. -/
def readEnvironment : IO Environment := do
  let mut e := Environment.empty
  for name in serverVariables do
    if let some value ← IO.getEnv name then
      e := e.set name value
  return e

/-- The machine, with the server as its first process. -/
def machine (args : List String) (env : Environment) : System :=
  .ofProcess .isolated .empty
    ⟨1, .standard, env, [], some "/server", args.map OsText.ofString, none⟩

def report (events : List Event) : IO Unit := do
  for e in events do
    IO.eprintln e.record.message

/-- Serves the standard input, as the connection `id`, until it ends. -/
partial def serveInput (i : Instance) (id : Nat) : IO Instance := do
  let bytes ← (← IO.getStdin).read 8192
  let arrived := i.echo.arrive id bytes.toList
  let arrived := if bytes.isEmpty then arrived.halfClose id else arrived
  let (echo, out, events) := arrived.serve id
  let output ← IO.getStdout
  output.write ⟨out.toArray⟩
  output.flush
  report events
  let i := { i with echo := echo }
  if bytes.isEmpty then return i else serveInput i id

/-- Runs the server: its exit code. -/
def runServer (args : List String) : IO UInt32 := do
  let o := (machine args (← readEnvironment)).startServer
  match o.result with
  | .error e =>
    if e.exitCode = 0 then IO.print e.message else IO.eprintln e.message
    return e.exitCode.toUInt32
  | .ok i =>
    report o.events
    let (echo, events) := (i.echo.connect 0 "stdin").accept
    report events
    let i ← serveInput { i with echo := echo } 0
    let (i, s, events) := i.obey o.state .shutdown
    report events
    let (i, _, events) := i.settle s
    report events
    report (i.leave []).events
    return 0

end Handoff

/-- The command of the server. -/
def main (args : List String) : IO UInt32 := Handoff.runServer args
