import Transceiver.BitField
import Transceiver.Half
import Transceiver.Calibration.Block

/-!
# The register map

The registers and fields that the library touches. Many registers are shared by unrelated
functions, so every field says where it lives, and everything else in its register is kept.

Registers at a fixed address come first, in address order. The registers of a PLL, a low-pass
filter or a calibration block are given by their offset in the block.
-/

namespace Transceiver.Register

/-! ## Fixed registers -/

/-- Top level control: reset, chip enable, enables of the two halves. -/
def topControl : Address := 0x05

/-- Radio frequency loopback and the destination of a baseband loopback. -/
def loopbackControl : Address := 0x08

/-- Clock enables and the input of the ADC. -/
def clockEnable : Address := 0x09

/-- Power of the radio frequency loopback switch. -/
def loopbackSwitch : Address := 0x0b

/-- Transmit DAC control. -/
def txDac : Address := 0x36

/-- Comparator of the transmit filter's calibration. -/
def txLpfComparator : Address := 0x3f

/-- Transmit front end enable. -/
def txFrontEnd : Address := 0x40

/-- TXVGA1 gain; the register holds nothing else. -/
def txvga1Gain : Address := 0x41

/-- Power amplifier selection, auxiliary amplifier and peak detector power. -/
def paControl : Address := 0x44

/-- TXVGA2 gain. -/
def txvga2Gain : Address := 0x45

/-- Source of a baseband loopback. -/
def basebandLoop : Address := 0x46

/-- Comparator of the receive filter's calibration. -/
def rxLpfComparator : Address := 0x5f

/-- RXVGA2 enable and the control of its stages. -/
def rxvga2Control : Address := 0x64

/-- RXVGA2 gain. -/
def rxvga2Gain : Address := 0x65

/-- The two stage gains of RXVGA2 under direct control. -/
def rxvga2Stages : Address := 0x68

/-- Comparators of the RXVGA2 calibration. -/
def rxvga2Comparator : Address := 0x6e

/-- Receive front end enable and LNA decode. -/
def rxFrontEnd : Address := 0x70

/-- Receive front end input: the LNA pads. -/
def rxInput : Address := 0x71

/-- LNA gain and selection. -/
def lnaControl : Address := 0x75

/-- RXVGA1 gain. -/
def rxvga1Gain : Address := 0x76

/-- Termination of the receive front end. -/
def rxTermination : Address := 0x7c

/-- Test register with the power of the LNA and of RXVGA1. -/
def rxPower : Address := 0x7d

/-! ## Fields of the fixed registers -/

namespace Top

/-- Soft reset, active low. -/
def resetN : Flag := { address := topControl, offset := 5 }

/-- Enable of the whole chip. -/
def chipEnable : Flag := { address := topControl, offset := 4 }

/-- Enable of the transmit half. -/
def txEnable : Flag := { address := topControl, offset := 3 }

/-- Enable of the receive half. -/
def rxEnable : Flag := { address := topControl, offset := 2 }

/-- Four wire mode of the serial interface. -/
def fourWire : Flag := { address := topControl, offset := 1 }

end Top

namespace Loop

/-- The LNA path that the transmit mixer feeds: 0 for none, 1 to 3 for an LNA, more is reserved. -/
def rf : BitField 4 := { address := loopbackControl, offset := 0 }

/-- Baseband loop to the receive output pins. -/
def toOutputPins : Flag := { address := loopbackControl, offset := 4 }

/-- Baseband loop to the input of RXVGA2. -/
def toRxvga2 : Flag := { address := loopbackControl, offset := 5 }

/-- Baseband loop to the input of the receive filter. -/
def toRxLpf : Flag := { address := loopbackControl, offset := 6 }

/-- Where a baseband loop starts. -/
def source : BitField 2 := { address := basebandLoop, offset := 2 }

/-- Power of the radio frequency loopback switch. -/
def switch : Flag := { address := loopbackSwitch, offset := 0 }

end Loop

namespace Clock

/-- Clock of the transmit PLL's delta-sigma modulator. -/
def txDsm : Flag := { address := clockEnable, offset := 0 }

/-- Calibration clock of the transmit filter. -/
def txLpfCalibration : Flag := { address := clockEnable, offset := 1 }

/-- Clock of the receive PLL's delta-sigma modulator. -/
def rxDsm : Flag := { address := clockEnable, offset := 2 }

/-- Calibration clock of the receive filter. -/
def rxLpfCalibration : Flag := { address := clockEnable, offset := 3 }

/-- Calibration clock of RXVGA2. -/
def rxvga2Calibration : Flag := { address := clockEnable, offset := 4 }

/-- Clock of the filter tuning. -/
def lpfTuning : Flag := { address := clockEnable, offset := 5 }

/-- The ADC takes its input from the external pins. -/
def externalAdc : Flag := { address := clockEnable, offset := 7 }

/-- The calibration clock of a block. -/
def calibration : Calibration.Block → Flag
  | .lpfTuning => lpfTuning
  | .txLpf => txLpfCalibration
  | .rxLpf => rxLpfCalibration
  | .rxvga2 => rxvga2Calibration

end Clock

namespace Tx

/-- The DAC is off or at its least DC output. -/
def dacQuiet : Flag := { address := txDac, offset := 7 }

/-- Power down of the filter's calibration comparator. -/
def comparatorOff : Flag := { address := txLpfComparator, offset := 7 }

/-- Front end enable. -/
def frontEndEnable : Flag := { address := txFrontEnd, offset := 1 }

/-- TXVGA1 gain code. -/
def vga1 : BitField 5 := { address := txvga1Gain, offset := 0 }

/-- Main power amplifiers: 0 for none, 2 for the first, 4 for the second. -/
def paEnable : BitField 3 := { address := paControl, offset := 2 }

/-- Power down of the auxiliary amplifier. -/
def auxPaOff : Flag := { address := paControl, offset := 1 }

/-- Power down of the envelope and peak detector. -/
def peakDetectorOff : Flag := { address := paControl, offset := 0 }

/-- TXVGA2 gain code. -/
def vga2 : BitField 5 := { address := txvga2Gain, offset := 3 }

end Tx

namespace Rx

/-- Power down of the filter's calibration comparator. -/
def comparatorOff : Flag := { address := rxLpfComparator, offset := 7 }

/-- RXVGA2 enable. -/
def vga2Enable : Flag := { address := rxvga2Control, offset := 1 }

/-- Direct control of the stage gains of RXVGA2. -/
def vga2Decode : Flag := { address := rxvga2Control, offset := 0 }

/-- RXVGA2 gain code. -/
def vga2 : BitField 5 := { address := rxvga2Gain, offset := 0 }

/-- Gain of the first stage of RXVGA2. -/
def vga2StageA : BitField 4 := { address := rxvga2Stages, offset := 0 }

/-- Gain of the second stage of RXVGA2. -/
def vga2StageB : BitField 4 := { address := rxvga2Stages, offset := 4 }

/-- Power down of the two calibration comparators of RXVGA2. -/
def vga2ComparatorsOff : BitField 2 := { address := rxvga2Comparator, offset := 6 }

/-- Front end enable. -/
def frontEndEnable : Flag := { address := rxFrontEnd, offset := 0 }

/-- Test bit that powers the LNAs down. -/
def lnaDecodeOff : Flag := { address := rxFrontEnd, offset := 1 }

/-- Cleared to connect the LNA to the pads and terminate it inside. -/
def padConnect : Flag := { address := rxInput, offset := 7 }

/-- LNA gain mode. -/
def lnaGain : BitField 2 := { address := lnaControl, offset := 6 }

/-- Selected LNA. -/
def lna : BitField 2 := { address := lnaControl, offset := 4 }

/-- RXVGA1 gain code. -/
def vga1 : BitField 7 := { address := rxvga1Gain, offset := 0 }

/-- Internal termination of the front end. -/
def terminate : Flag := { address := rxTermination, offset := 2 }

/-- Power down of RXVGA1. -/
def vga1Off : Flag := { address := rxPower, offset := 3 }

/-- Power down of the LNA. -/
def lnaOff : Flag := { address := rxPower, offset := 0 }

end Rx

/-! ## PLL block -/

namespace Pll

/-- Integer divider, bits 8 to 1. -/
def nintHigh (h : Half) : BitField 8 := { address := h.pllBase, offset := 0 }

/-- Integer divider, bit 0. -/
def nintLow (h : Half) : BitField 1 := { address := h.pllBase + 1, offset := 7 }

/-- Fractional divider, bits 22 to 16. -/
def nfracHigh (h : Half) : BitField 7 := { address := h.pllBase + 1, offset := 0 }

/-- Fractional divider, bits 15 to 8. -/
def nfracMid (h : Half) : BitField 8 := { address := h.pllBase + 2, offset := 0 }

/-- Fractional divider, bits 7 to 0. -/
def nfracLow (h : Half) : BitField 8 := { address := h.pllBase + 3, offset := 0 }

/-- Dither of the delta-sigma modulator. -/
def dither (h : Half) : Flag := { address := h.pllBase + 4, offset := 7 }

/-- Number of dithered bits less one. -/
def ditherBits (h : Half) : BitField 3 := { address := h.pllBase + 4, offset := 4 }

/-- PLL enable. -/
def enable (h : Half) : Flag := { address := h.pllBase + 4, offset := 3 }

/-- Code of the frequency band. -/
def freqSel (h : Half) : BitField 6 := { address := h.pllBase + 5, offset := 2 }

/-- Output buffer: 0 for none, 1 for the low band, 2 for the high band, 3 for the RF loopback. -/
def selOut (h : Half) : BitField 2 := { address := h.pllBase + 5, offset := 0 }

/-- Charge pump current. -/
def chargePump (h : Half) : BitField 5 := { address := h.pllBase + 6, offset := 0 }

/-- Charge pump up offset current. -/
def offsetUp (h : Half) : BitField 5 := { address := h.pllBase + 7, offset := 0 }

/-- Charge pump down offset current. -/
def offsetDown (h : Half) : BitField 5 := { address := h.pllBase + 8, offset := 0 }

/-- Trim code of the VCO capacitor. -/
def vcoCap (h : Half) : BitField 6 := { address := h.pllBase + 9, offset := 0 }

/-- Comparators of the tuning voltage. -/
def vtune (h : Half) : BitField 2 := { address := h.pllBase + 10, offset := 6 }

end Pll

/-! ## Low-pass filter block -/

namespace Lpf

/-- Index into the bandwidth table. -/
def bandwidth (h : Half) : BitField 4 := { address := h.lpfBase + 4, offset := 2 }

/-- Filter enable. -/
def enable (h : Half) : Flag := { address := h.lpfBase + 4, offset := 1 }

/-- Filter bypass. -/
def bypass (h : Half) : Flag := { address := h.lpfBase + 5, offset := 6 }

/-- DC offset level, the target of the filter tuning. -/
def dcLevel (h : Half) : BitField 6 := { address := h.lpfBase + 5, offset := 0 }

end Lpf

/-! ## Calibration block -/

namespace Dc

variable (b : Calibration.Block)

/-- Value held by the addressed submodule. -/
def value : BitField 6 := { address := b.base, offset := 0 }

/-- A calibration is under way. -/
def busy : Flag := { address := b.base + 1, offset := 1 }

/-- Value to load. -/
def count : BitField 6 := { address := b.base + 2, offset := 0 }

/-- Address of a submodule. -/
def submodule : BitField 3 := { address := b.base + 3, offset := 0 }

/-- Reset, active low. -/
def resetN : Flag := { address := b.base + 3, offset := 3 }

/-- Strobe that loads the count into the addressed submodule. -/
def load : Flag := { address := b.base + 3, offset := 4 }

/-- Strobe that starts a calibration of the addressed submodule. -/
def start : Flag := { address := b.base + 3, offset := 5 }

end Dc

end Transceiver.Register
