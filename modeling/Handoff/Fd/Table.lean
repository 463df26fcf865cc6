import Handoff.IoError
import Handoff.Table

/-!
# Fd tables

The open file descriptors of one process. Each open number refers to a file and may be marked to
close when the process executes a program. The operations are those of the system: the lowest free
number, duplication to a free or to a given number, and closing.
-/

namespace Handoff

/-- What an open fd refers to. -/
inductive File where
  /-- The socket with this number. -/
  | socket (id : Nat)
  /-- A file that is no socket, by number. -/
  | plain (id : Nat)
  deriving DecidableEq, Repr

/-- An open fd. -/
structure FdEntry where
  /-- What it refers to. -/
  file : File
  /-- Whether it closes when a program is executed. -/
  closeOnExec : Bool
  deriving DecidableEq, Repr

/-- The open fds of a process by number. -/
@[ext] structure FdTable extends Table Int FdEntry
  deriving DecidableEq, Repr

namespace FdTable

def empty : FdTable := ⟨.empty⟩

/-- The standard streams, which survive the execution of a program. -/
def standard : FdTable where
  entries := [(0, ⟨.plain 0, false⟩), (1, ⟨.plain 1, false⟩), (2, ⟨.plain 2, false⟩)]

/-- What `fd` refers to, if it is open. -/
def file? (t : FdTable) (fd : Int) : Option File := (t.get? fd).map (·.file)

/-- Whether `fd` is open. -/
def isOpen (t : FdTable) (fd : Int) : Bool := (t.get? fd).isSome

/-- The table without `fd`. -/
def erase (t : FdTable) (fd : Int) : FdTable := ⟨t.toTable.erase fd⟩

/-- The table in which `fd` refers to `e`, whatever it was before. -/
def insert (t : FdTable) (fd : Int) (e : FdEntry) : FdTable := ⟨t.toTable.insert fd e⟩

@[simp] theorem get?_erase_self (t : FdTable) (fd : Int) : (t.erase fd).get? fd = none :=
  t.toTable.get?_erase_self fd

theorem get?_erase_of_ne (t : FdTable) {fd k : Int} (h : k ≠ fd) :
    (t.erase fd).get? k = t.get? k :=
  t.toTable.get?_erase_of_ne h

@[simp] theorem get?_insert_self (t : FdTable) (fd : Int) (e : FdEntry) :
    (t.insert fd e).get? fd = some e :=
  t.toTable.get?_insert_self fd e

theorem get?_insert_of_ne (t : FdTable) {fd k : Int} (e : FdEntry) (h : k ≠ fd) :
    (t.insert fd e).get? k = t.get? k :=
  t.toTable.get?_insert_of_ne e h

/-- The lowest free number from `floor` up. One more number than there are entries is tried, so
one of them is free. -/
def lowestFree (t : FdTable) (floor : Int) : Int :=
  let count := t.entries.length
  match (List.range (count + 1)).find? fun (n : Nat) => !t.isOpen (floor + n) with
  | some n => floor + n
  | none => floor + (count + 1)

/-- Opens `f` at the lowest free number; it closes when a program is executed. -/
def openFile (t : FdTable) (f : File) : Int × FdTable :=
  let fd := t.lowestFree 0
  (fd, t.insert fd ⟨f, true⟩)

/-- Duplicates `fd` to the lowest free number from `floor` up; the copy closes when a program is
executed. -/
def dupAbove (t : FdTable) (fd floor : Int) : Except IoError (Int × FdTable) :=
  match t.file? fd with
  | none => .error .badDescriptor
  | some f =>
    let new := t.lowestFree floor
    .ok (new, t.insert new ⟨f, true⟩)

/-- Duplicates `source` onto `target`, closing what was there; the copy survives the execution of
a program. -/
def dupOnto (t : FdTable) (source target : Int) : Except IoError FdTable :=
  match t.file? source with
  | none => .error .badDescriptor
  | some f => .ok (t.insert target ⟨f, false⟩)

/-- Lets `fd` survive the execution of a program. -/
def keepOnExec (t : FdTable) (fd : Int) : Except IoError FdTable :=
  match t.get? fd with
  | none => .error .badDescriptor
  | some e => .ok (t.insert fd { e with closeOnExec := false })

/-- Closes `fd`. -/
def close (t : FdTable) (fd : Int) : Except IoError FdTable :=
  if t.isOpen fd then .ok (t.erase fd) else .error .badDescriptor

/-- What is left when a program is executed: the entries without `closeOnExec`. -/
def afterExec (t : FdTable) : FdTable := ⟨t.keep (!·.2.closeOnExec)⟩

/-- Whether some fd refers to `f`. -/
def refersTo (t : FdTable) (f : File) : Bool := t.entries.any (·.2.file == f)

end FdTable

end Handoff
