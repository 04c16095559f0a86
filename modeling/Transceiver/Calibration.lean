import Transceiver.Calibration.Attempt

/-!
# DC offset calibration

A calibration takes over a part of the chip. What it disturbs is read first; if that fails, nothing
has been written. Then the block is set up and attempted, and however that ends, every step of the
clean-up and of the restoration is tried, and the first fault of all is the one reported.
-/

namespace Transceiver.Calibration

open Procedure Register

/-- The settings of the receive front end that a calibration overrides. -/
structure FrontEnd where
  input : Byte
  termination : Byte
  lnaGain : Amplifier.LnaGain
  rxvga1 : Int
  rxvga2 : Int
deriving Repr, DecidableEq

/-- What a calibration puts back. -/
structure Backup where
  clocks : Byte
  /-- Only for a block that is calibrated through the front end. -/
  frontEnd : Option FrontEnd
deriving Repr, DecidableEq

/-- Reads the settings of the front end. -/
def readFrontEnd : Procedure FrontEnd := do
  let input ← readByte rxInput
  let termination ← readByte Register.rxTermination
  let lnaGain ← Gain.readLna
  let rxvga1 ← Gain.readDb .rxvga1
  let rxvga2 ← Gain.readDb .rxvga2
  return { input, termination, lnaGain, rxvga1, rxvga2 }

/-- Reads what the calibration of a block disturbs. -/
def takeBackup (b : Block) : Procedure Backup := do
  let clocks ← readByte clockEnable
  if b.usesFrontEnd then
    return { clocks, frontEnd := some (← readFrontEnd) }
  else
    return { clocks, frontEnd := none }

/-- Powers the comparators of a block. The transmit DAC is made quiet for its filter. -/
def powerComparators (b : Block) : Procedure Unit :=
  match b with
  | .lpfTuning => pure ()
  | .txLpf => do
    put Tx.dacQuiet true
    put Tx.comparatorOff false
  | .rxLpf => put Rx.comparatorOff false
  | .rxvga2 => assign Rx.vga2ComparatorsOff 0

/-- Cuts the front end off from the pads, terminates it, and sets full gain. -/
def isolateFrontEnd (found : FrontEnd) : Procedure Unit := do
  writeByte rxInput (Rx.padConnect.put found.input false)
  writeByte Register.rxTermination (Rx.terminate.put found.termination true)
  Gain.setLna .max
  let _ ← Gain.setDb .rxvga1 DbStage.rxvga1.high
  let _ ← Gain.setDb .rxvga2 DbStage.rxvga2.high

/-- Sets the chip up for the calibration of a block. -/
def setUp (b : Block) (backup : Backup) : Procedure Unit := do
  writeByte clockEnable ((Clock.calibration b).put backup.clocks true)
  powerComparators b
  match backup.frontEnd with
  | some found => isolateFrontEnd found
  | none => pure ()

/-- Powers the comparators of a block down and undoes the rest of its set-up, but for what was
backed up. -/
def tearDown (b : Block) : Procedure Unit :=
  match b with
  | .lpfTuning => pure ()
  | .txLpf => forceAll [put Tx.comparatorOff true, put Tx.dacQuiet false]
  | .rxLpf => put Rx.comparatorOff true
  | .rxvga2 =>
    forceAll [
      writeByte rxvga2Stages (stageGains 1 0),
      put Rx.vga2Decode false,
      assign Rx.vga2ComparatorsOff 3]

/-- The steps that put the front end back. -/
def FrontEnd.restoration (found : FrontEnd) : List (Procedure Unit) := [
  writeByte rxInput found.input,
  writeByte Register.rxTermination found.termination,
  Gain.setLna found.lnaGain,
  discard (Gain.setDb .rxvga1 found.rxvga1),
  discard (Gain.setDb .rxvga2 found.rxvga2)]

/-- Puts back what was backed up. -/
def restore (backup : Backup) : Procedure Unit :=
  forceAll (writeByte clockEnable backup.clocks ::
    (match backup.frontEnd with
    | some found => found.restoration
    | none => []))

/-- Calibrates a block. -/
def calibrate (b : Block) : Procedure Unit := do
  let backup ← takeBackup b
  forceAll [
    do
      setUp b backup
      converge b .highest,
    tearDown b,
    restore backup]

end Transceiver.Calibration
