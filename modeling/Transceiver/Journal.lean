import Transceiver.Frequency.Divider
import Transceiver.Gain.Stage
import Transceiver.Loopback.Mode
import Transceiver.Synthesizer.TuningVoltage

/-!
# The journal

Operations note what they do. A note says what happened; its level and its wording stand in
`Note.level` and `Note.text` alone.
-/

namespace Transceiver

/-- How much a note matters. -/
inductive Level where
  | trace
  | debug
  | info
  | warn
  | error
deriving Repr, DecidableEq

/-- The level's name in log lines. -/
def Level.name : Level → String
  | .trace => "TRACE"
  | .debug => "DEBUG"
  | .info => "INFO"
  | .warn => "WARN"
  | .error => "ERROR"

/-- Something worth a line in the log. -/
inductive Note where
  /-- A requested frequency was brought into the tunable range. -/
  | clampedFrequency (hz : Nat)
  /-- A PLL is about to be programmed. -/
  | dividers (half : Half) (settings : Divider)
  /-- The modulator clocks could not be switched on. -/
  | modulatorsFailed
  /-- The comparators showed a reserved pattern. -/
  | invalidVoltage (bits : BitVec 2)
  /-- The capacitor search found a code inside the window. -/
  | foundNormal (code : Nat)
  /-- The voltage was too high, the search goes up. -/
  | tooHigh (code next : Nat)
  /-- The voltage was too low, the search goes down. -/
  | tooLow (code next : Nat)
  /-- The search ended outside the window. -/
  | searchFailed
  /-- The lowest code inside the window. -/
  | lowerLimit (code : Nat)
  /-- The highest code inside the window. -/
  | upperLimit (code : Nat)
  /-- The code in the middle of the window. -/
  | middle (code : Nat)
  /-- The code in the middle is not inside the window. -/
  | middleFailed (voltage : Synthesizer.TuningVoltage)
  /-- The power amplifier bits are no selection. -/
  | invalidPowerAmp (enable : BitVec 3) (auxOff : Bool)
  /-- The filter bits are no mode. -/
  | invalidFilterMode (control bypass : Byte)
  /-- A register was read for a dump. -/
  | dumped (address : Address) (value : Byte)
  /-- A register could not be read for a dump. -/
  | dumpFailed (address : Address)
  /-- A requested gain was brought into the stage's range. -/
  | clampedGain (stage : DbStage) (gain : Int)
  /-- A loopback mode is about to be set. -/
  | settingLoopback (mode : Loopback.Mode)
  /-- A submodule is about to be calibrated. -/
  | calibrating (block : Calibration.Block) (submodule : Nat)
  /-- A calibration loop came to a value. -/
  | calibrated (value : BitVec 6)
  /-- A calibration loop did not finish. -/
  | loopTimedOut
  /-- The value is the one the loop started from. -/
  | suspectValue
  /-- The second value is as bad as the first. -/
  | keptBadValue
  /-- A calibration is tried again at a lower gain. -/
  | retrying (stage : DbStage) (gain : Int)
  /-- No gain is left to lower. -/
  | retriesExhausted
  /-- A calibration failed for good. -/
  | calibrationFailed (block : Calibration.Block)
deriving Repr, DecidableEq

namespace Note

/-- The level of a note. -/
def level : Note → Level
  | .foundNormal _ | .tooHigh _ _ | .tooLow _ _ | .lowerLimit _ | .upperLimit _ => .trace
  | .clampedFrequency _ | .clampedGain _ _ => .info
  | .middleFailed _ | .loopTimedOut | .calibrationFailed _ => .warn
  | .invalidVoltage _ => .error
  | .dividers _ _ | .modulatorsFailed | .searchFailed | .middle _ | .invalidPowerAmp _ _
  | .invalidFilterMode _ _ | .dumped _ _ | .dumpFailed _ | .settingLoopback _ | .calibrating _ _
  | .calibrated _ | .suspectValue | .keptBadValue | .retrying _ _ | .retriesExhausted => .debug

/-- The wording of a note. -/
def text : Note → String
  | .clampedFrequency hz => s!"Clamping frequency to {hz}Hz"
  | .dividers half d =>
    s!"{half.name} PLL: x={d.x} nint={d.nint} nfrac={d.nfrac} freqsel=" ++ hexText d.freqSel.toNat
  | .modulatorsFailed => "Failed to turn on DSMs"
  | .invalidVoltage bits => "Invalid VTUNE value encountered: " ++ hexText bits.toNat
  | .foundNormal code => s!"Found normal at VCOCAP: {code}"
  | .tooHigh code next => s!"Too high: {code} -> {next}"
  | .tooLow code next => s!"Too low: {code} -> {next}"
  | .searchFailed => "VTUNE is not locked at the end of initial loop"
  | .lowerLimit code => s!"Found lower limit VCOCAP: {code}"
  | .upperLimit code => s!"Found upper limit VCOCAP: {code}"
  | .middle code => s!"Goldilocks VCOCAP: {code}"
  | .middleFailed voltage =>
    s!"VCOCAP could not converge and VTUNE is not locked - {voltage.name}"
  | .invalidPowerAmp enable auxOff =>
    s!"Invalid PA configuration: PA_EN={enable.toNat}, AUX PD=" ++
      (if auxOff then "true" else "false")
  | .invalidFilterMode control bypass =>
    "Invalid LPF configuration: " ++ hexText control.toNat ++ ", " ++ hexText bypass.toNat
  | .dumped address value => "LMS[" ++ hexText address.toNat ++ "] = " ++ hexText value.toNat
  | .dumpFailed address => "Failed to read LMS @ " ++ hexText address.toNat
  | .clampedGain stage gain => s!"Clamping {stage.name} gain to {gain}dB"
  | .settingLoopback mode => s!"Setting loopback mode {mode.name}"
  | .calibrating block submodule =>
    "Calibrating module " ++ hexText block.base.toNat ++ ":" ++ hexText submodule
  | .calibrated value => s!"DC_REGVAL: {value.toNat}"
  | .loopTimedOut => "DC calibration loop did not converge"
  | .suspectValue => "DC_REGVAL suboptimal value - retrying DC cal loop"
  | .keptBadValue => "Bad DC_REGVAL detected, keeping it"
  | .retrying stage gain => s!"Retrying DC cal with {stage.name}={gain}"
  | .retriesExhausted => "DC Cal retry limit reached"
  | .calibrationFailed block => s!"DC Calibration ({block.name}) failed to converge"

end Note

end Transceiver
