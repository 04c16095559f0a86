import Transceiver.Amplifier
import Transceiver.Frequency.Packing
import Transceiver.Loopback.Current
import Transceiver.Synthesizer.Tuning

/-!
# The synthesizers

Programming the PLL of a half and reading it back. The modulators of both PLLs are clocked while one
of them is programmed, and their clocks are switched off again whatever happens. While a loopback is
engaged, the output buffer of the PLL and the amplifiers belong to it and are left alone.
-/

namespace Transceiver.Synthesizer

open Procedure Register

/-- The charge pump current of a programmed PLL. -/
def chargePumpCurrent : BitVec 5 := 0x0c

/-- The up offset current of a programmed PLL. -/
def offsetUpCurrent : BitVec 5 := 0

/-- The down offset current of a programmed PLL. -/
def offsetDownCurrent : BitVec 5 := 0

/-- Switches the clocks of both modulators. -/
def clockModulators (on : Bool) : Procedure Unit :=
  modify clockEnable fun clocks => Clock.rxDsm.put (Clock.txDsm.put clocks on) on

/-- The output buffer of a PLL at a frequency. -/
def outputBuffer (hz : Nat) : BitVec 2 :=
  if hz < highBandHz then 1 else 2

/-- Writes the band code, and the output buffer for `hz` unless a loopback is engaged. -/
def writeBand (h : Half) (hz : Nat) (code : BitVec 6) : Procedure Unit := do
  let old ← readByte (Pll.freqSel h).address
  if ← Loopback.isEngaged then
    writeByte (Pll.freqSel h).address ((Pll.freqSel h).set old code)
  else
    writeByte (Pll.freqSel h).address
      ((Pll.selOut h).set ((Pll.freqSel h).set 0 code) (outputBuffer hz))

/-- Writes the whole and the fractional divider. -/
def writeDividers (h : Half) (nint nfrac : Nat) : Procedure Unit := do
  let packed := PackedDividers.pack h nint nfrac
  writeByte (Pll.nintHigh h).address packed.nintHigh
  writeByte (Pll.nfracHigh h).address packed.shared
  writeByte (Pll.nfracMid h).address packed.nfracMid
  writeByte (Pll.nfracLow h).address packed.nfracLow

/-- Sets the currents of the charge pump. -/
def setCurrents (h : Half) : Procedure Unit := do
  assign (Pll.chargePump h) chargePumpCurrent
  assign (Pll.offsetUp h) offsetUpCurrent
  assign (Pll.offsetDown h) offsetDownCurrent

/-- Programs a PLL and tunes its VCO. -/
def program (h : Half) (hz : Nat) (d : Divider) : Procedure Unit := do
  writeBand h hz d.freqSel
  writeDividers h d.nint d.nfrac
  setCurrents h
  tune h

/-- Notes a frequency that is not the one requested. -/
def noteClamped (hz request : Nat) : Procedure Unit :=
  if hz = request then pure () else log (.clampedFrequency hz)

/-- Tunes a half to the tunable frequency nearest to `request`, and returns the settings used. -/
def setFrequency (h : Half) (request : Nat) : Procedure Divider := do
  let hz := clampHz request
  noteClamped hz request
  let d := Divider.ofHz hz
  log (.dividers h d)
  match ← (clockModulators true).attempt with
  | .error fault =>
    log .modulatorsFailed
    fail fault
  | .ok () =>
    forceAll [program h hz d, clockModulators false]
    return d

/-- Reads the whole and the fractional divider. -/
def readDividers (h : Half) : Procedure PackedDividers := do
  let nintHigh ← readByte (Pll.nintHigh h).address
  let shared ← readByte (Pll.nfracHigh h).address
  let nfracMid ← readByte (Pll.nfracMid h).address
  let nfracLow ← readByte (Pll.nfracLow h).address
  return { nintHigh, shared, nfracMid, nfracLow }

/-- The settings shown by the divider registers and the band code. -/
def decode (h : Half) (packed : PackedDividers) (code : BitVec 6) : Except Fault Divider :=
  (vcoDivider code).map fun x =>
    { x
      nint := packed.nint h
      nfrac := packed.nfrac h
      freqSel := code
      reference := referenceHz }

/-- The settings that a PLL is programmed with. -/
def dividers (h : Half) : Procedure Divider := do
  let packed ← readDividers h
  let code ← load (Pll.freqSel h)
  ofExcept (decode h packed code)

/-- The frequency that a PLL is programmed to, in Hz. -/
def frequencyHz (h : Half) : Procedure Nat := do
  match (← dividers h).hz? with
  | .ok hz => return hz
  | .error fault => fail (.arithmetic fault)

/-- Selects the amplifier of a half for the band of `hz`. While a loopback is engaged, the
amplifiers stay as they are. -/
def selectBand (h : Half) (hz : Nat) : Procedure Unit := do
  if ← Loopback.isEngaged then
    return ()
  else
    match h with
    | .tx => Amplifier.selectPowerAmp (if highBandHz ≤ hz then .pa2 else .pa1)
    | .rx => Amplifier.selectLna (if highBandHz ≤ hz then .lna2 else .lna1)

end Transceiver.Synthesizer
