import Transceiver.Procedure

/-!
# Power and enables

Reset of the chip and the switches of its blocks. Each switch changes its own bits and keeps what
else its register holds.
-/

namespace Transceiver.Power

open Procedure Register

/-- Resets the whole chip: the reset is asserted and released with the chip enabled and its
interface in four wire mode. -/
def softReset : Procedure Unit := do
  let running := Top.fourWire.put (Top.chipEnable.put 0 true) true
  writeByte topControl (Top.resetN.put running false)
  writeByte topControl (Top.resetN.put running true)

/-- Powers the chip down. -/
def down : Procedure Unit :=
  put Top.chipEnable false

/-- Switches the receive half. -/
def enableRx (on : Bool) : Procedure Unit :=
  put Top.rxEnable on

/-- Switches the transmit half. -/
def enableTx (on : Bool) : Procedure Unit :=
  put Top.txEnable on

/-- Switches the front end of a half. -/
def enableFrontEnd (h : Half) (on : Bool) : Procedure Unit :=
  match h with
  | .tx => put Tx.frontEndEnable on
  | .rx => put Rx.frontEndEnable on

/-- Switches the PLL of a half. -/
def enablePll (h : Half) (on : Bool) : Procedure Unit :=
  put (Pll.enable h) on

/-- Switches the dither of a half's modulator, over 1 to 8 bits. Switching it off leaves the number
of bits alone. -/
def enableDither (h : Half) (bits : Nat) (on : Bool) : Procedure Unit :=
  if 1 ≤ bits ∧ bits ≤ 8 then
    if on then
      modify (Pll.dither h).address fun b =>
        (Pll.ditherBits h).set ((Pll.dither h).put b true) (BitVec.ofNat 3 (bits - 1))
    else
      put (Pll.dither h) false
  else
    fail .invalidArgument

/-- Switches RXVGA1. -/
def enableRxvga1 (on : Bool) : Procedure Unit :=
  put Rx.vga1Off (!on)

/-- Switches RXVGA2. -/
def enableRxvga2 (on : Bool) : Procedure Unit :=
  put Rx.vga2Enable on

/-- Switches the power of the LNA, by its test bit and its decode bit. -/
def enableLna (on : Bool) : Procedure Unit := do
  put Rx.lnaOff (!on)
  put Rx.lnaDecodeOff (!on)

/-- Switches the radio frequency loopback switch. -/
def enableLoopbackSwitch (on : Bool) : Procedure Unit :=
  put Loop.switch on

/-- Switches the envelope and peak detector. -/
def enablePeakDetector (on : Bool) : Procedure Unit :=
  put Tx.peakDetectorOff (!on)

end Transceiver.Power
