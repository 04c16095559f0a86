import Transceiver.LowPass
import Transceiver.Power
import Transceiver.Synthesizer

/-!
# Changing the loopback

A change of mode goes through a quiet state: no amplifier is selected and every path switch is open
before the blocks of the two halves are set up, and the switches of the new mode are closed last.
Normal operation tunes both halves afresh, since their frequencies may have been changed while the
loopback owned the amplifiers.
-/

namespace Transceiver.Loopback

open Procedure Register

/-- Closes the path switches of a mode and opens the others. -/
def closeSwitches (mode : Mode) : Procedure Unit := do
  let source ← readByte basebandLoop
  let control ← readByte loopbackControl
  writeByte basebandLoop (mode.closeSource source)
  writeByte loopbackControl (mode.closePath control)

/-- Tunes a half again to the frequency it is programmed to, and selects its amplifier. -/
def restoreBand (h : Half) : Procedure Unit := do
  let hz ← Synthesizer.frequencyHz h
  let _ ← Synthesizer.setFrequency h hz
  Synthesizer.selectBand h hz

/-- Brings the receive filter back into operation if it was found disabled. -/
def reviveFilter (found : LowPass.Mode) : Procedure Unit := do
  if found = .disabled then
    LowPass.setMode .rx .normal

/-- Sets up the receive half. -/
def prepareRx (mode : Mode) : Procedure Unit := do
  let filter ← LowPass.mode .rx
  match mode with
  | .baseband _ .rxVga2 =>
    Power.enableRxvga2 true
    LowPass.setMode .rx .disabled
  | .baseband _ .rxLpf =>
    Power.enableRxvga1 false
    reviveFilter filter
    Power.enableRxvga2 true
  | .rf path =>
    Power.enableLna false
    Power.enableRxvga1 true
    reviveFilter filter
    Power.enableRxvga2 true
    -- the output buffer of the receive PLL feeds the looped LNA
    assign (Pll.selOut .rx) path.code
    Amplifier.selectLna path.lna
    Power.enableLoopbackSwitch true
  | .none =>
    Power.enableRxvga1 true
    reviveFilter filter
    Power.enableRxvga2 true
    Power.enableLoopbackSwitch false
    Power.enableLna true
    restoreBand .rx

/-- Sets up the transmit half. -/
def prepareTx (mode : Mode) : Procedure Unit :=
  match mode with
  | .baseband _ _ => pure ()
  | .rf _ => Amplifier.selectPowerAmp .aux
  | .none => restoreBand .tx

/-- Changes the loopback mode. -/
def change (mode : Mode) : Procedure Unit := do
  log (.settingLoopback mode)
  Amplifier.selectPowerAmp .none
  Amplifier.selectLna .none
  closeSwitches .none
  prepareRx mode
  prepareTx mode
  closeSwitches mode

end Transceiver.Loopback
