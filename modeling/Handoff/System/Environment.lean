import Handoff.Table
import Handoff.Text.OsText

/-!
# Environments

The variables of a process, each set at most once.
-/

namespace Handoff

/-- The variables of a process by name. -/
structure Environment extends Table OsText OsText
  deriving DecidableEq, Repr

namespace Environment

def empty : Environment := ⟨.empty⟩

/-- The value of `name`, if it is set and well-formed. -/
def getText? (e : Environment) (name : OsText) : Option String :=
  (e.get? name).bind OsText.toString?

/-- The environment without `name`. -/
def unset (e : Environment) (name : OsText) : Environment := ⟨e.toTable.erase name⟩

/-- The environment in which `name` has the given value. -/
def set (e : Environment) (name : OsText) (value : OsText) : Environment :=
  ⟨e.toTable.insert name value⟩

theorem entries_set (e : Environment) (name : OsText) (value : OsText) :
    (e.set name value).entries = (name, value) :: (e.unset name).entries :=
  rfl

@[simp] theorem get?_unset_self (e : Environment) (name : OsText) :
    (e.unset name).get? name = none :=
  e.toTable.get?_erase_self name

theorem get?_unset_of_ne (e : Environment) {name other : OsText} (h : other ≠ name) :
    (e.unset name).get? other = e.get? other :=
  e.toTable.get?_erase_of_ne h

@[simp] theorem get?_set_self (e : Environment) (name : OsText) (value : OsText) :
    (e.set name value).get? name = some value :=
  e.toTable.get?_insert_self name value

theorem get?_set_of_ne (e : Environment) {name other : OsText} (value : OsText)
    (h : other ≠ name) : (e.set name value).get? other = e.get? other :=
  e.toTable.get?_insert_of_ne value h

end Environment

end Handoff
