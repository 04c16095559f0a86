import Transceiver.Fault
import Transceiver.Word

/-!
# The tuning voltage

Two comparators tell whether the tuning voltage of a VCO lies in its window. A trim code of the VCO
capacitor that is too high pulls the voltage below the window, one that is too low pushes it above.
-/

namespace Transceiver.Synthesizer

/-- Where the tuning voltage lies. -/
inductive TuningVoltage where
  /-- Inside the window. -/
  | normal
  /-- Below the window: the trim code is too high. -/
  | low
  /-- Above the window: the trim code is too low. -/
  | high
deriving Repr, DecidableEq

namespace TuningVoltage

/-- The voltage's name in log lines. -/
def name : TuningVoltage → String
  | .normal => "Normal"
  | .low => "Low"
  | .high => "High"

/-- The voltage with a raw code. -/
def ofCode : Nat → Except Fault TuningVoltage
  | 0 => .ok .normal
  | 1 => .ok .low
  | 2 => .ok .high
  | _ => .error .unexpectedState

/-- The raw code of a voltage. -/
def code : TuningVoltage → Nat
  | .normal => 0
  | .low => 1
  | .high => 2

end TuningVoltage

end Transceiver.Synthesizer
