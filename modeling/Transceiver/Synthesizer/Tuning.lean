import Transceiver.Procedure

/-!
# Tuning the VCO capacitor

A VCO locks over a range of trim codes of its capacitor. Tuning looks for any code inside the range
by halving steps, walks from there to both ends of the range, and settles in the middle.

Each loop runs on a budget of its own: the search on its number of probes, the two walks on the
codes left below and above.
-/

namespace Transceiver.Synthesizer

open Procedure Register

/-- The trim code that the search starts from. -/
def firstCode : Nat := 32

/-- The greatest trim code. -/
def lastCode : Nat := 63

/-- How many codes the search probes before it gives up. -/
def searchBudget : Nat := 6

/-- Sets the trim code in the capacitor byte `cap` and reads the comparators. -/
def probe (h : Half) (cap : Byte) (code : Nat) : Procedure TuningVoltage := do
  writeByte (Pll.vcoCap h).address ((Pll.vcoCap h).set cap (BitVec.ofNat 6 code))
  let shown ← load (Pll.vtune h)
  match TuningVoltage.ofCode shown.toNat with
  | .ok voltage => return voltage
  | .error fault =>
    log (.invalidVoltage shown)
    fail fault

/-- Looks for a code inside the window, going up while the voltage is too high and down while it is
too low, by a step that halves each time. -/
def search (h : Half) (cap : Byte) : (budget code step : Nat) → Procedure (Option Nat)
  | 0, _, _ => return none
  | budget + 1, code, step => do
    match ← probe h cap code with
    | .normal =>
      log (.foundNormal code)
      return some code
    | .high =>
      log (.tooHigh code (code + step))
      search h cap budget (code + step) (step / 2)
    | .low =>
      log (.tooLow code (code - step))
      search h cap budget (code - step) (step / 2)

/-- Walks down from a code to the last one before the voltage gets too high. -/
def walkDown (h : Half) (cap : Byte) : (code : Nat) → Procedure Nat
  | 0 => return 0
  | code + 1 => do
    if (← probe h cap code) = .high then
      return code + 1
    else
      walkDown h cap code

/-- Walks up from a code, with `room` codes above it, to the last one before the voltage gets too
low. -/
def walkUp (h : Half) (cap : Byte) : (room code : Nat) → Procedure Nat
  | 0, code => return code
  | room + 1, code => do
    if (← probe h cap (code + 1)) = .low then
      return code
    else
      walkUp h cap room (code + 1)

/-- The highest code of the window around `code`. The code itself is probed again first, since the
walk down has left it. -/
def upperEnd (h : Half) (cap : Byte) (code : Nat) : Procedure Nat := do
  if (← probe h cap code) = .low then
    return code
  else
    walkUp h cap (lastCode - code) code

/-- Sets the trim code in the middle of the codes inside the window. -/
def tune (h : Half) : Procedure Unit := do
  let cap ← readByte (Pll.vcoCap h).address
  match ← search h cap searchBudget firstCode (firstCode / 2) with
  | none =>
    log .searchFailed
    fail .unexpectedState
  | some code =>
    let lower ← walkDown h cap code
    log (.lowerLimit lower)
    let upper ← upperEnd h cap code
    log (.upperLimit upper)
    let middle := (lower + upper) / 2
    log (.middle middle)
    match ← probe h cap middle with
    | .normal => return ()
    | voltage =>
      log (.middleFailed voltage)
      fail .unexpectedState

end Transceiver.Synthesizer
