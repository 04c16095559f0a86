import Transceiver.Word

/-!
# Filter bandwidths

Each half has a low-pass filter with sixteen bandwidths, coded from the widest to the narrowest.
A request in Hz gets the narrowest bandwidth that lets it through.
-/

namespace Transceiver.LowPass

/-- A bandwidth of the low-pass filter, named in MHz. -/
inductive Bandwidth where
  | mhz28 | mhz20 | mhz14 | mhz12 | mhz10 | mhz8p75 | mhz7 | mhz6
  | mhz5p5 | mhz5 | mhz3p84 | mhz3 | mhz2p75 | mhz2p5 | mhz1p75 | mhz1p5
deriving Repr, DecidableEq

namespace Bandwidth

/-- Every bandwidth by its code, the widest first. -/
def byCode : Vector Bandwidth 16 :=
  #v[.mhz28, .mhz20, .mhz14, .mhz12, .mhz10, .mhz8p75, .mhz7, .mhz6,
    .mhz5p5, .mhz5, .mhz3p84, .mhz3, .mhz2p75, .mhz2p5, .mhz1p75, .mhz1p5]

/-- The bandwidth with a register code. -/
def ofCode (code : BitVec 4) : Bandwidth :=
  byCode.get code.toFin

/-- The register code of a bandwidth. -/
def code : Bandwidth → BitVec 4
  | .mhz28 => 0 | .mhz20 => 1 | .mhz14 => 2 | .mhz12 => 3
  | .mhz10 => 4 | .mhz8p75 => 5 | .mhz7 => 6 | .mhz6 => 7
  | .mhz5p5 => 8 | .mhz5 => 9 | .mhz3p84 => 10 | .mhz3 => 11
  | .mhz2p75 => 12 | .mhz2p5 => 13 | .mhz1p75 => 14 | .mhz1p5 => 15

/-- A code names the bandwidth that has it. -/
@[simp] theorem ofCode_code (b : Bandwidth) : ofCode b.code = b := by
  cases b <;> rfl

/-- The width in Hz. -/
def hz : Bandwidth → Nat
  | .mhz28 => 28000000 | .mhz20 => 20000000 | .mhz14 => 14000000 | .mhz12 => 12000000
  | .mhz10 => 10000000 | .mhz8p75 => 8750000 | .mhz7 => 7000000 | .mhz6 => 6000000
  | .mhz5p5 => 5500000 | .mhz5 => 5000000 | .mhz3p84 => 3840000 | .mhz3 => 3000000
  | .mhz2p75 => 2750000 | .mhz2p5 => 2500000 | .mhz1p75 => 1750000 | .mhz1p5 => 1500000

/-- Bandwidths are ordered by their codes. -/
instance : Ord Bandwidth where
  compare a b := compare a.code.toNat b.code.toNat

/-- The narrowest bandwidth of at least `request` Hz, or the widest one. -/
def ofHz (request : Nat) : Bandwidth :=
  (byCode.toList.reverse.find? fun b => decide (request ≤ b.hz)).getD .mhz28

end Bandwidth

end Transceiver.LowPass
