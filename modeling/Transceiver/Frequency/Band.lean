import Transceiver.Word

/-!
# Frequency bands

The synthesizer covers its tuning range with sixteen bands. The code of a band selects a VCO and,
in its low three bits, how far the VCO is divided down. Neighbouring bands share the frequency
between them, which belongs to the lower one.
-/

namespace Transceiver

/-- The lowest tunable frequency in Hz: the lower edge of the lowest VCO, 3.72 GHz, over 16. -/
def lowestHz : Nat := 232500000

/-- The highest tunable frequency in Hz. -/
def highestHz : Nat := 3800000000

/-- From this frequency on, the high band amplifiers and PLL output buffer are used. -/
def highBandHz : Nat := 1500000000

/-- The tunable frequency nearest to `hz`. -/
def clampHz (hz : Nat) : Nat :=
  min (max hz lowestHz) highestHz

/-- A frequency band, both ends included. -/
structure Band where
  low : Nat
  high : Nat
  /-- The VCO in bits 5 to 3, the divider in bits 2 to 0. -/
  code : BitVec 6
deriving Repr, DecidableEq

namespace Band

/-- Whether `hz` lies in the band. -/
def contains (band : Band) (hz : Nat) : Bool :=
  decide (band.low ≤ hz) && decide (hz ≤ band.high)

/-- The band that starts at the lowest tunable frequency. -/
def lowest : Band := ⟨lowestHz, 285625000, 0x27⟩

/-- Every band, in ascending order. -/
def all : List Band := [
  lowest,
  ⟨285625000, 336875000, 0x2f⟩,
  ⟨336875000, 405000000, 0x37⟩,
  ⟨405000000, 465000000, 0x3f⟩,
  ⟨465000000, 571250000, 0x26⟩,
  ⟨571250000, 673750000, 0x2e⟩,
  ⟨673750000, 810000000, 0x36⟩,
  ⟨810000000, 930000000, 0x3e⟩,
  ⟨930000000, 1142500000, 0x25⟩,
  ⟨1142500000, 1347500000, 0x2d⟩,
  ⟨1347500000, 1620000000, 0x35⟩,
  ⟨1620000000, 1860000000, 0x3d⟩,
  ⟨1860000000, 2285000000, 0x24⟩,
  ⟨2285000000, 2695000000, 0x2c⟩,
  ⟨2695000000, 3240000000, 0x34⟩,
  ⟨3240000000, highestHz, 0x3c⟩]

/-- The first band that contains `hz`. -/
def find? (hz : Nat) : Option Band :=
  all.find? (·.contains hz)

end Band

end Transceiver
