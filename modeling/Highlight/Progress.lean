/-!
# Progress of waiting computations

A computation that may have to wait is asked again and again. Each time it is either done, with its
result, or still pending, with what is left of it to ask next time.
-/

namespace Highlight

/-- What asking a waiting computation gives. -/
inductive Progress (α τ : Type) where
  /-- The computation has finished. -/
  | done (result : α)
  /-- It has to be asked again. -/
  | pending (remaining : τ)
  deriving Repr

end Highlight
