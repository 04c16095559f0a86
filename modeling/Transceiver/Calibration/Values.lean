import Transceiver.Procedure

/-!
# Calibration values

Ten slots hold the DC corrections: one for each submodule of each block. Values can be read, saved
and loaded again; a block without a value to load is not accessed.
-/

namespace Transceiver.Calibration

/-- One stored correction. -/
inductive Slot where
  | lpfTuning
  | txLpfI | txLpfQ
  | rxLpfI | rxLpfQ
  | dcReference
  | rxvga2aI | rxvga2aQ
  | rxvga2bI | rxvga2bQ
deriving Repr, DecidableEq

namespace Slot

/-- Every slot, by block and submodule. -/
def all : List Slot := [
  .lpfTuning, .txLpfI, .txLpfQ, .rxLpfI, .rxLpfQ, .dcReference, .rxvga2aI, .rxvga2aQ, .rxvga2bI,
  .rxvga2bQ]

/-- The block that holds a slot. -/
def block : Slot → Block
  | .lpfTuning => .lpfTuning
  | .txLpfI | .txLpfQ => .txLpf
  | .rxLpfI | .rxLpfQ => .rxLpf
  | .dcReference | .rxvga2aI | .rxvga2aQ | .rxvga2bI | .rxvga2bQ => .rxvga2

/-- The submodule that holds a slot. -/
def submodule : Slot → BitVec 3
  | .lpfTuning | .txLpfI | .rxLpfI | .dcReference => 0
  | .txLpfQ | .rxLpfQ | .rxvga2aI => 1
  | .rxvga2aQ => 2
  | .rxvga2bI => 3
  | .rxvga2bQ => 4

end Slot

/-- The slots of a block, by submodule. -/
def Block.slots (b : Block) : List Slot :=
  Slot.all.filter fun slot => slot.block == b

/-- A value for some of the slots. -/
abbrev Values := Slot → Option Byte

namespace Values

/-- No value at all. -/
def empty : Values := fun _ => none

/-- Values from readings of every slot, in order. -/
def ofReadings (readings : List (BitVec 6)) : Values := fun slot =>
  readings[Slot.all.idxOf slot]?.map (·.setWidth 8)

/-- The greatest value that a slot can hold. -/
def maxValue : Nat := 63

/-- Whether every value fits its slot. -/
def fit (values : Values) : Bool :=
  Slot.all.all fun slot => (values slot).all fun value => decide (value.toNat ≤ maxValue)

/-- The values for the slots of a block, by submodule. -/
def ofBlock (values : Values) (b : Block) : List (Slot × Byte) :=
  b.slots.filterMap fun slot => (values slot).map fun value => (slot, value)

end Values

open Procedure Register

/-- The control byte that addresses a submodule with the block out of reset. -/
def addressing (b : Block) (submodule : BitVec 3) : Byte :=
  (Dc.submodule b).set ((Dc.resetN b).put 0 true) submodule

/-- Reads the value of a slot. -/
def readSlot (slot : Slot) : Procedure (BitVec 6) := do
  let b := slot.block
  writeByte (Dc.submodule b).address (addressing b slot.submodule)
  load (Dc.value b)

/-- Loads a value into a slot by the count register and the load strobe. The value is read back at
the end, and not looked at. -/
def loadSlot (slot : Slot) (value : Byte) : Procedure Unit := do
  let b := slot.block
  let control := addressing b slot.submodule
  writeByte (Dc.submodule b).address control
  writeByte (Dc.count b).address ((Dc.count b).set 0 (value.setWidth 6))
  writeByte (Dc.load b).address ((Dc.load b).put control true)
  writeByte (Dc.load b).address control
  let _ ← readByte (Dc.value b).address

/-- Reads every value. -/
def readValues : Procedure Values := do
  return Values.ofReadings (← Slot.all.mapM readSlot)

/-- Loads values into the slots of one block, with the block's clock on meanwhile. -/
def loadBlock (b : Block) (values : List (Slot × Byte)) : Procedure Unit :=
  match values with
  | [] => pure ()
  | _ :: _ => do
    put (Clock.calibration b) true
    values.forM fun (slot, value) => loadSlot slot value
    put (Clock.calibration b) false

/-- Loads values into their slots, block by block. -/
def loadValues (values : Values) : Procedure Unit :=
  if values.fit then
    Block.all.forM fun b => loadBlock b (values.ofBlock b)
  else
    fail .invalidArgument

end Transceiver.Calibration
