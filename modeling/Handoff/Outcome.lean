import Handoff.Event

/-!
# Outcomes

What a call did: its result, the state of the world afterwards and the events that it reported. The
state is there on success and on failure alike, so what a failing call leaves behind can be told.
-/

namespace Handoff

/-- What a call did in a world of type `σ`. -/
structure Outcome (σ ε α : Type) where
  result : Except ε α
  /-- The world afterwards. -/
  state : σ
  /-- What was reported, in order. -/
  events : List Event

end Handoff
