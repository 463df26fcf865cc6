import Handoff.Path

/-!
# Addresses

Where a listener is bound: a TCP `host:port` or the path of a Unix socket. The text is kept as
written, for it is what parent and child compare; only two Unix addresses that are both parsed are
compared as paths.
-/

namespace Handoff

/-- Where a listener is bound. -/
inductive Address where
  /-- A TCP host and port, resolved when it is bound. -/
  | tcp (hostPort : String)
  /-- The `path` of a Unix socket. -/
  | unix (path : String)
  deriving DecidableEq, Repr

namespace Address

/-- The address of a text: a path behind `unix:`, a text that starts with `/`, `./` or `../` is a
path as it stands, and every other text is a host and port. -/
def parse (s : String) : Address :=
  match s.toList with
  | 'u' :: 'n' :: 'i' :: 'x' :: ':' :: path => .unix (String.ofList path)
  | '/' :: _ => .unix s
  | '.' :: '/' :: _ => .unix s
  | '.' :: '.' :: '/' :: _ => .unix s
  | _ => .tcp s

def value : Address → String
  | .tcp s => s
  | .unix s => s

def display : Address → String
  | .tcp s => s!"tcp:{s}"
  | .unix s => s!"unix:{s}"

/-- Two addresses are the same when they are the same host and port, or paths with the same
`Path.components`. -/
def Same : Address → Address → Prop
  | .tcp a, .tcp b => a = b
  | .unix a, .unix b =>
    Path.components (OsText.ofString a).chars = Path.components (OsText.ofString b).chars
  | _, _ => False

instance : DecidableRel Same
  | .tcp a, .tcp b => inferInstanceAs (Decidable (a = b))
  | .unix a, .unix b =>
    inferInstanceAs (Decidable
      (Path.components (OsText.ofString a).chars = Path.components (OsText.ofString b).chars))
  | .tcp _, .unix _ => isFalse id
  | .unix _, .tcp _ => isFalse id

end Address

end Handoff
