import Transceiver.Procedure

/-!
# Programming gains

Setting the gain of a stage and reading it back. A request is never refused for being out of range:
it gets the nearest gain that the stage has, which is noted and returned. Only the LNA has a
setting that is refused, the gain mode that is none.
-/

namespace Transceiver

namespace Gain

open Procedure Register

/-- Notes a gain that is not the one requested. -/
def noteClamped (stage : DbStage) (gain request : Int) : Procedure Unit :=
  if gain = request then pure () else log (.clampedGain stage gain)

/-- Writes a gain in range to the register of its stage. Only TXVGA2 has to read it first. -/
def store (stage : DbStage) (gain : Int) : Procedure Unit :=
  match stage with
  | .rxvga1 | .rxvga2 | .txvga1 => writeByte stage.address (stage.encode gain 0)
  | .txvga2 => modify stage.address (stage.encode gain)

/-- Programs a dB stage with the gain nearest to a request, and returns the gain it got. -/
def setDb (stage : DbStage) (request : Int) : Procedure Int := do
  noteClamped stage (stage.clamp request) request
  store stage (stage.clamp request)
  return stage.effective request

/-- The gain of a dB stage. -/
def readDb (stage : DbStage) : Procedure Int :=
  stage.decode <$> readByte stage.address

/-- Sets the gain mode of the LNA. -/
def setLna (gain : Amplifier.LnaGain) : Procedure Unit :=
  match gain with
  | .unknown => fail .invalidArgument
  | .bypass | .mid | .max => assign Rx.lnaGain gain.bits

/-- The gain mode of the LNA. -/
def readLna : Procedure Amplifier.LnaGain := do
  match Amplifier.LnaGain.ofBits (← load Rx.lnaGain) with
  | .unknown => fail .unexpectedState
  | gain => return gain

/-- Programs one stage and returns the gain it got. -/
def set : Gain → Procedure Gain
  | .lna gain => do
    setLna gain
    return .lna gain
  | .db stage request => .db stage <$> setDb stage request

/-- The gain of a stage. -/
def read : GainStage → Procedure Gain
  | .lna => .lna <$> readLna
  | .db stage => .db stage <$> readDb stage

end Gain

end Transceiver
