import Transceiver.Calibration.Values

/-!
# The calibration loop

The low-level loop of a calibration: one submodule is addressed, its starting count is latched, the
engine is started, and its status is polled until it is done or the polls run out.
-/

namespace Transceiver.Calibration

open Procedure Register

/-- How often the status is polled before the loop gives up. -/
def pollBudget : Nat := 25

/-- The pause after a poll that finds the engine busy, in microseconds. -/
def pollPause : Nat := 10

/-- Polls the status of a block until it is done, and tells whether it was within the budget. -/
def awaitDone (b : Block) : (budget : Nat) → Procedure Bool
  | 0 => return false
  | budget + 1 => do
    if (Dc.busy b).isSet (← readByte (Dc.busy b).address) then
      wait pollPause
      awaitDone b budget
    else
      return true

/-- Calibrates a submodule from a starting count. There is no value when the polls run out. -/
def settle (b : Block) (submodule : Nat) (count : BitVec 6) : Procedure (Option (BitVec 6)) := do
  log (.calibrating b submodule)
  let old ← readByte (Dc.submodule b).address
  let control := (Dc.submodule b).set old (BitVec.ofNat 3 submodule)
  writeByte (Dc.submodule b).address control
  -- latch the count
  writeByte (Dc.count b).address ((Dc.count b).set 0 count)
  let control := (Dc.load b).put control true
  writeByte (Dc.load b).address control
  let control := (Dc.load b).put control false
  writeByte (Dc.load b).address control
  -- start the engine
  let control := (Dc.start b).put control true
  writeByte (Dc.start b).address control
  writeByte (Dc.start b).address ((Dc.start b).put control false)
  if ← awaitDone b pollBudget then
    let value ← load (Dc.value b)
    log (.calibrated value)
    return some value
  else
    log .loopTimedOut
    return none

end Transceiver.Calibration
