import Handoff.Proofs.Text.OsText
import Handoff.System.Environment

/-!
# Texts in the environment

A variable that was set to a text is read as that text: `Environment.getText?_set_self`.
-/

namespace Handoff

namespace Environment

theorem getText?_set_self (e : Environment) (name text : String) :
    (e.set name text).getText? name = some text := by
  rw [getText?, get?_set_self, Option.bind_some, OsText.toString?_ofString]

end Environment

end Handoff
