import Transceiver.Calibration
import Transceiver.Dump
import Transceiver.Loopback
import Transceiver.Sampling

/-!
# Commands

Every operation of the library as data: a command names an operation with its arguments, its
procedure carries it out, and a reply holds what it returns. A history of a transceiver is a list
of commands.
-/

namespace Transceiver

/-- An operation on the transceiver with its arguments. -/
inductive Command where
  | readRaw (address : Byte)
  | writeRaw (address value : Byte)
  | setBits (address mask : Byte)
  | clearBits (address mask : Byte)
  | softReset
  | powerDown
  | enableRx (on : Bool)
  | enableTx (on : Bool)
  | enableFrontEnd (half : Half) (on : Bool)
  | enablePll (half : Half) (on : Bool)
  | enableDither (half : Half) (bits : Nat) (on : Bool)
  | enableRxvga1 (on : Bool)
  | enableRxvga2 (on : Bool)
  | enableLna (on : Bool)
  | enableLoopbackSwitch (on : Bool)
  | enablePeakDetector (on : Bool)
  | selectPowerAmp (pa : Amplifier.PowerAmp)
  | powerAmp
  | selectLna (lna : Amplifier.Lna)
  | lna
  | enableFilter (half : Half) (on : Bool)
  | filterMode (half : Half)
  | setFilterMode (half : Half) (mode : LowPass.Mode)
  | bandwidth (half : Half)
  | setBandwidth (half : Half) (bandwidth : LowPass.Bandwidth)
  | setBandwidthHz (half : Half) (hz : Nat)
  | sampling
  | setSampling (sampling : Sampling)
  | dump
  | setGain (gain : Gain)
  | gain (stage : GainStage)
  | setFrequency (half : Half) (hz : Nat)
  | dividers (half : Half)
  | frequencyHz (half : Half)
  | selectBand (half : Half) (hz : Nat)
  | setLoopback (mode : Loopback.Mode)
  | loopback
  | loopbackEngaged
  | calibrate (block : Calibration.Block)
  | readCalibration
  | loadCalibration (values : Calibration.Values)

/-- What a command returns. -/
inductive Reply where
  | unit
  | byte (value : Byte)
  | flag (value : Bool)
  | hz (value : Nat)
  | powerAmp (pa : Amplifier.PowerAmp)
  | lna (lna : Amplifier.Lna)
  | filterMode (mode : LowPass.Mode)
  | bandwidth (bandwidth : LowPass.Bandwidth)
  | sampling (sampling : Sampling)
  | dump (dump : Dump)
  | gain (gain : Gain)
  | dividers (settings : Divider)
  | loopback (mode : Loopback.Mode)
  | calibration (values : Calibration.Values)

namespace Procedure

/-- The register with a raw address. -/
def register (address : Byte) : Procedure Address :=
  match Address.ofNat? address.toNat with
  | some address => return address
  | none => fail .invalidArgument

/-- Replies to an operation that returns nothing. -/
def acknowledge (p : Procedure Unit) : Procedure Reply := do
  p
  return .unit

end Procedure

namespace Command

open Procedure

/-- The procedure that carries a command out. -/
def procedure : Command → Procedure Reply
  | .readRaw address => do
    return .byte (← readByte (← register address))
  | .writeRaw address value => do
    writeByte (← register address) value
    return .unit
  | .setBits address mask => do
    modify (← register address) (· ||| mask)
    return .unit
  | .clearBits address mask => do
    modify (← register address) (· &&& ~~~mask)
    return .unit
  | .softReset => acknowledge <| Power.softReset
  | .powerDown => acknowledge <| Power.down
  | .enableRx on => acknowledge <| Power.enableRx on
  | .enableTx on => acknowledge <| Power.enableTx on
  | .enableFrontEnd half on => acknowledge <| Power.enableFrontEnd half on
  | .enablePll half on => acknowledge <| Power.enablePll half on
  | .enableDither half bits on => acknowledge <| Power.enableDither half bits on
  | .enableRxvga1 on => acknowledge <| Power.enableRxvga1 on
  | .enableRxvga2 on => acknowledge <| Power.enableRxvga2 on
  | .enableLna on => acknowledge <| Power.enableLna on
  | .enableLoopbackSwitch on => acknowledge <| Power.enableLoopbackSwitch on
  | .enablePeakDetector on => acknowledge <| Power.enablePeakDetector on
  | .selectPowerAmp pa => acknowledge <| Amplifier.selectPowerAmp pa
  | .powerAmp => .powerAmp <$> Amplifier.powerAmp
  | .selectLna choice => acknowledge <| Amplifier.selectLna choice
  | .lna => .lna <$> Amplifier.lna
  | .enableFilter half on => acknowledge <| LowPass.enable half on
  | .filterMode half => .filterMode <$> LowPass.mode half
  | .setFilterMode half mode => acknowledge <| LowPass.setMode half mode
  | .bandwidth half => .bandwidth <$> LowPass.bandwidth half
  | .setBandwidth half width => acknowledge <| LowPass.setBandwidth half width
  | .setBandwidthHz half hz => .bandwidth <$> LowPass.setBandwidthHz half hz
  | .sampling => .sampling <$> Sampling.selected
  | .setSampling input => acknowledge <| Sampling.select input
  | .dump => .dump <$> Dump.take
  | .setGain request => .gain <$> Gain.set request
  | .gain stage => .gain <$> Gain.read stage
  | .setFrequency half hz => .dividers <$> Synthesizer.setFrequency half hz
  | .dividers half => .dividers <$> Synthesizer.dividers half
  | .frequencyHz half => .hz <$> Synthesizer.frequencyHz half
  | .selectBand half hz => acknowledge <| Synthesizer.selectBand half hz
  | .setLoopback mode => acknowledge <| Loopback.change mode
  | .loopback => .loopback <$> Loopback.current
  | .loopbackEngaged => .flag <$> Loopback.isEngaged
  | .calibrate block => acknowledge <| Calibration.calibrate block
  | .readCalibration => .calibration <$> Calibration.readValues
  | .loadCalibration values => acknowledge <| Calibration.loadValues values

end Command

end Transceiver
