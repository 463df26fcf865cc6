import Handoff.IoError
import Handoff.Path
import Handoff.Table

/-!
# The file tree

Directories, sockets, programs and other files by absolute path. Paths are walked name by name from
the root or from a working directory; every name but the last must lead to a directory.
-/

namespace Handoff

/-- What stands at a path. -/
inductive Node where
  | directory
  /-- A file that cannot be executed. -/
  | regular
  /-- A program, or a link to one, with the `path` of the program itself. -/
  | program (path : OsText)
  /-- The socket with this number. -/
  | socket (id : Nat)
  deriving DecidableEq, Repr

/-- An absolute path, as the names below the root. -/
abbrev Place := List OsText

def Place.display (p : Place) : String :=
  if p = [] then "/" else String.join (p.map fun n => "/" ++ n.display)

/-- What stands where; the root is always a directory. -/
structure FileTree extends Table Place Node
  deriving DecidableEq, Repr

namespace FileTree

def empty : FileTree := ⟨.empty⟩

/-- The node at `p`. -/
def get? (t : FileTree) (p : Place) : Option Node :=
  if p = [] then some .directory else t.toTable.get? p

/-- Puts `n` at `p`. -/
def insert (t : FileTree) (p : Place) (n : Node) : FileTree := ⟨t.toTable.insert p n⟩

/-- Removes the node at `p`. -/
def erase (t : FileTree) (p : Place) : FileTree := ⟨t.toTable.erase p⟩

/-- The longest name in bytes. -/
def nameLimit : Nat := 255

/-- The longest path in bytes, and one more. -/
def lengthLimit : Nat := 4096

/-- One `name` further from the place `p`. -/
def step (t : FileTree) (p : Place) (name : OsText) : Except IoError Place :=
  match t.get? p with
  | none => .error .notFound
  | some .directory =>
    if nameLimit < name.size then .error .nameTooLong
    else .ok (if name = ".." then p.dropLast else if name = "." then p else p ++ [name])
  | some _ => .error .notADirectory

/-- Where names lead from the place `p`; the last one need not exist. -/
def walk (t : FileTree) (p : Place) : List OsText → Except IoError Place
  | [] => .ok p
  | n :: ns =>
    match t.step p n with
    | .error e => .error e
    | .ok q => t.walk q ns

/-- The names between the separators of a path, `.` and `..` among them. -/
def names (path : OsText) : List OsText :=
  ((Path.pieces path.chars).filter (· ≠ [])).map OsText.mk

/-- Whether `path` ends with a separator. -/
def endsOpen (path : OsText) : Bool := path.chars.getLast? = some Path.slash

/-- The place from which the `names` of `path` are walked. The empty path leads nowhere, and neither
does one that is too long. -/
def origin (cwd : Place) (path : OsText) : Except IoError Place :=
  if path.chars = [] then .error .notFound
  else if lengthLimit ≤ path.size then .error .nameTooLong
  else .ok (if path.chars.head? = some Path.slash then [] else cwd)

/-- Where a path leads from a working directory; the last name need not exist. A separator at the
end stands for a last name `.`. -/
def locate (t : FileTree) (cwd : Place) (path : OsText) : Except IoError Place :=
  match origin cwd path with
  | .error e => .error e
  | .ok p => t.walk p (if endsOpen path then names path ++ [.ofString "."] else names path)

/-- The node to which `path` leads from `cwd`. -/
def find (t : FileTree) (cwd : Place) (path : OsText) : Except IoError Node :=
  match t.locate cwd path with
  | .error e => .error e
  | .ok p =>
    match t.get? p with
    | none => .error .notFound
    | some n => .ok n

/-- The directory to which `path` leads from `cwd`. -/
def enter (t : FileTree) (cwd : Place) (path : OsText) : Except IoError Place :=
  match t.locate cwd path with
  | .error e => .error e
  | .ok p =>
    match t.get? p with
    | none => .error .notFound
    | some .directory => .ok p
    | some _ => .error .notADirectory

/-- The free place to which `path` leads, for a new socket: the names before the last one must lead
to a directory, and the last one must be new there. A taken place is an address in use, whatever
separators follow its name; they ask for a directory, which a free place is not. -/
def vacancy (t : FileTree) (cwd : Place) (path : OsText) : Except IoError Place :=
  match origin cwd path with
  | .error e => .error e
  | .ok p =>
    match t.walk p (names path) with
    | .error e => .error e
    | .ok q =>
      match t.get? q with
      | some _ => .error .addressInUse
      | none => if endsOpen path then .error .notFound else .ok q

/-- Makes the directories on the way to `p`, and the one there. -/
def makeDirectories (t : FileTree) (p : Place) : FileTree :=
  (List.range p.length).foldl (fun t n => t.insert (p.take (n + 1)) .directory) t

/-- Makes the directories of `path`, as seen from `cwd`. -/
def makePath (t : FileTree) (cwd : Place) (path : OsText) : FileTree :=
  let start := if path.chars.head? = some Path.slash then [] else cwd
  t.makeDirectories (start ++ (names path).filter (· ≠ .ofString "."))

/-- The program to which `path` leads: its own path, behind all links. -/
def executable (t : FileTree) (cwd : Place) (path : OsText) : Except IoError OsText :=
  match t.find cwd path with
  | .error e => .error e
  | .ok (.program p) => .ok p
  | .ok _ => .error .permissionDenied

end FileTree

end Handoff
