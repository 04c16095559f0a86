import Transceiver.LowPass.Bandwidth
import Transceiver.LowPass.Mode
import Transceiver.Procedure

/-!
# The low-pass filters

Switching a filter, its mode and its bandwidth. Every change writes the register with the enable bit
first and the one with the bypass bit second.
-/

namespace Transceiver.LowPass

open Procedure Register

/-- Enables or disables a filter, and takes it out of bypass. -/
def enable (h : Half) (on : Bool) : Procedure Unit := do
  put (Lpf.enable h) on
  let bypass ← readByte (Lpf.bypass h).address
  if (Lpf.bypass h).isSet bypass then
    writeByte (Lpf.bypass h).address ((Lpf.bypass h).put bypass false)

/-- The mode of a filter. -/
def mode (h : Half) : Procedure Mode := do
  let control ← readByte (Lpf.enable h).address
  let bypass ← readByte (Lpf.bypass h).address
  match Mode.decode? h control bypass with
  | some mode => return mode
  | none =>
    log (.invalidFilterMode control bypass)
    fail .unexpectedState

/-- Sets the mode of a filter: reads both registers, then writes both. -/
def setMode (h : Half) (mode : Mode) : Procedure Unit := do
  let control ← readByte (Lpf.enable h).address
  let bypass ← readByte (Lpf.bypass h).address
  writeByte (Lpf.enable h).address ((Lpf.enable h).put control mode.enabled)
  writeByte (Lpf.bypass h).address ((Lpf.bypass h).put bypass mode.isBypassed)

/-- Sets the bandwidth of a filter. -/
def setBandwidth (h : Half) (bandwidth : Bandwidth) : Procedure Unit :=
  assign (Lpf.bandwidth h) bandwidth.code

/-- The bandwidth of a filter. -/
def bandwidth (h : Half) : Procedure Bandwidth :=
  Bandwidth.ofCode <$> load (Lpf.bandwidth h)

/-- Sets the narrowest bandwidth that lets `hz` through, and returns it. -/
def setBandwidthHz (h : Half) (hz : Nat) : Procedure Bandwidth := do
  let bandwidth := Bandwidth.ofHz hz
  setBandwidth h bandwidth
  return bandwidth

end Transceiver.LowPass
