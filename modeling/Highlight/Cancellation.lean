import Highlight.Progress

/-!
# Cancellation

A token is cancelled once and for all. Work that holds it looks at it between steps; waiting for it
ends as soon as it has been cancelled.
-/

namespace Highlight

/-- A request to stop, which is made or not. -/
structure CancellationToken where
  isCancelled : Bool := false
  deriving DecidableEq, Repr, Inhabited

namespace CancellationToken

/-- The token after the request. -/
def cancel (_ : CancellationToken) : CancellationToken := ⟨true⟩

/-- Waits for the request. -/
def wait (token : CancellationToken) : Progress Unit Unit :=
  if token.isCancelled then .done () else .pending ()

end CancellationToken

end Highlight
