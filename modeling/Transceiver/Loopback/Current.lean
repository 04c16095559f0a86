import Transceiver.Procedure

/-!
# The current loopback

The loopback mode is not remembered anywhere: it is read off the path switches whenever it matters.
-/

namespace Transceiver.Loopback

open Procedure Register

/-- The loopback mode that the path switches show. -/
def current : Procedure Mode := do
  let control ← readByte loopbackControl
  let source ← readByte basebandLoop
  return Mode.decode control source

/-- Whether a loopback is engaged. -/
def isEngaged : Procedure Bool := do
  return (← current) != .none

end Transceiver.Loopback
