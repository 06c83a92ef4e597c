/-! # Visiting

A visitor looks at the items of a list in order until it breaks off with a value. -/

namespace Postmortem

/-- Whether a visit goes on or has broken off with a value. -/
inductive Flow (β : Type) where
  | goOn
  | broke (value : β)
  deriving DecidableEq, Repr

/-- Visits the items in order until the visitor breaks off. -/
def visit {m : Type → Type} [Monad m] {α β : Type} (visitor : α → m (Flow β)) :
    List α → m (Flow β)
  | [] => pure .goOn
  | item :: rest => do
    match ← visitor item with
    | .goOn => visit visitor rest
    | .broke value => pure (.broke value)

end Postmortem
