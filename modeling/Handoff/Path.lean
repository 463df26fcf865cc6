import Handoff.Text.OsText

/-!
# Paths

A path is a text in which `/` separates components; they may have holes. Repeated separators,
components `.` other than a leading one, and separators at the end do not count: `Path.components`
leaves them out, and `Path.parent?` cuts the last component that counts while it keeps the spelling
of the rest.
-/

namespace Handoff

namespace Path

/-- The separator. -/
@[match_pattern] abbrev slash : OsChar := .char '/'

/-- The character of the components `.` and `..`. -/
@[match_pattern] abbrev dot : OsChar := .char '.'

inductive Component where
  /-- The separator in front of an absolute path. -/
  | root
  /-- A leading `.`. -/
  | here
  /-- A name, which may be `..`. -/
  | name (cs : List OsChar)
  deriving DecidableEq, Repr

def pieces : List OsChar → List (List OsChar)
  | [] => [[]]
  | c :: cs =>
    if c = slash then [] :: pieces cs
    else
      match pieces cs with
      | [] => [[c]]
      | p :: ps => (c :: p) :: ps

/-- The name that a piece stands for: neither the empty piece nor `.` is one. -/
def nameOf? (p : List OsChar) : Option Component :=
  if p = [] ∨ p = [dot] then none else some (.name p)

/-- The components that count: the root of an absolute path, a leading `.`, and all names. -/
def components (cs : List OsChar) : List Component :=
  match pieces cs with
  | [] => []
  | p :: ps =>
    let first : List Component :=
      if p = [] then (if ps = [] then [] else [.root])
      else if p = [dot] then [.here]
      else [.name p]
    first ++ ps.filterMap nameOf?

/-- Cuts what does not count from the end of a path that is written backwards: separators, unless
one is all that is left, and components `.` behind a separator. -/
def trimBackwards : List OsChar → List OsChar
  | [slash] => [slash]
  | slash :: cs => trimBackwards cs
  | dot :: slash :: cs => if cs = [] then [slash] else trimBackwards cs
  | cs => cs

/-- Cuts what does not count from the end of a path, by `trimBackwards`. -/
def trimEnd (cs : List OsChar) : List OsChar := (trimBackwards cs.reverse).reverse

/-- The path without its last component, or `none` if it has none besides the root. -/
def parent? (cs : List OsChar) : Option (List OsChar) :=
  let t := trimEnd cs
  if t = [] ∨ t = [slash] then none
  else some (trimEnd (t.reverse.dropWhile (· ≠ slash)).reverse)

end Path

end Handoff
