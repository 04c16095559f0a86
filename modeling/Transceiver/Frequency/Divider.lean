import Transceiver.Fault
import Transceiver.Frequency.Band

/-!
# PLL dividers

A PLL multiplies its reference clock by `nint + nfrac / 2 ^ 23` to drive a VCO, and divides the
VCO down by `x`. `Divider.ofHz` finds the settings for a frequency, `Divider.hz?` the frequency of
some settings. Both round to nearest. A stored setting can be anything, so `hz?` watches the
bounds of its 64 bit arithmetic; the settings that `ofHz` gives never reach them.
-/

namespace Transceiver

/-- The reference clock of both PLLs in Hz. -/
def referenceHz : Nat := 38400000

/-- The number of bits of the fractional divider. -/
def nfracBits : Nat := 23

/-- How many steps the fractional divider makes of one. -/
def nfracSteps : Nat := 1 <<< nfracBits

/-- The number of values of a 64 bit word. -/
def wordValues : Nat := 18446744073709551616

/-- `n / d` rounded to the nearest whole number, a half upwards. -/
def roundDiv (n d : Nat) : Nat :=
  (n + d / 2) / d

/-- How far a band code divides the VCO down. The low three bits are the exponent, counted from
3; below that the code has no meaning. -/
def vcoDivider (code : BitVec 6) : Except Fault Nat :=
  let exponent := code.toNat % 8
  if 3 ≤ exponent then .ok (1 <<< (exponent - 3)) else .error .unexpectedState

/-- The settings of a PLL. -/
structure Divider where
  /-- What the VCO is divided by. -/
  x : Nat
  /-- The whole part of the multiplier. -/
  nint : Nat
  /-- The fractional part of the multiplier, in units of `2 ^ -23`. -/
  nfrac : Nat
  /-- The code of the band. -/
  freqSel : BitVec 6
  /-- The reference clock in Hz. -/
  reference : Nat
deriving Repr, DecidableEq

namespace Divider

/-- The settings for the tunable frequency nearest to `hz`. The fraction is rounded to nearest
and carries into the whole part when it rounds up to one. -/
def ofHz (hz : Nat) : Divider :=
  let hz := clampHz hz
  let code := ((Band.find? hz).getD Band.lowest).code
  let x := 1 <<< (code.toNat % 8 - 3)
  let vco := x * hz
  let nint := vco / referenceHz
  let nfrac := roundDiv ((vco - nint * referenceHz) * nfracSteps) referenceHz
  if nfrac = nfracSteps then
    { x, nint := nint + 1, nfrac := 0, freqSel := code, reference := referenceHz }
  else
    { x, nint, nfrac, freqSel := code, reference := referenceHz }

/-- The multiplier in units of `2 ^ -23`. -/
def coefficient (d : Divider) : Nat :=
  d.nint * nfracSteps + d.nfrac

/-- The divisor of the coefficient. -/
def divisor (d : Divider) : Nat :=
  d.x * nfracSteps

/-- The synthesized frequency in Hz, rounded to nearest, in 32 bits. The calculation is one of
64 bits and fails where one of its steps has no 64 bit value. -/
def hz? (d : Divider) : Except ArithmeticFault Nat :=
  if wordValues ≤ d.reference * d.coefficient then .error .multiplyOverflow
  else if wordValues ≤ d.reference * d.coefficient + d.divisor / 2 then .error .addOverflow
  else if d.divisor = 0 then .error .divideByZero
  else .ok (roundDiv (d.reference * d.coefficient) d.divisor % 4294967296)

end Divider

end Transceiver
