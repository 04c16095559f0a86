import Transceiver.Frequency.Divider
import Transceiver.Register.Map

/-!
# Packed dividers

The whole divider has 9 bits and the fractional divider 23. They fill four registers: the second
one holds the lowest bit of the whole divider above the highest bits of the fraction.

Packing and unpacking are inverse to each other (`nint_pack`, `nfrac_pack`, `pack_unpack`), so four
register bytes are the same thing as a pair of dividers.
-/

namespace Transceiver

/-- The four registers that hold the dividers of a PLL. -/
structure PackedDividers where
  nintHigh : Byte
  shared : Byte
  nfracMid : Byte
  nfracLow : Byte
deriving Repr, DecidableEq

namespace PackedDividers

open Register

/-- The registers for a whole and a fractional divider. -/
def pack (h : Half) (nint nfrac : Nat) : PackedDividers where
  nintHigh := (Pll.nintHigh h).set 0 (BitVec.ofNat 8 (nint / 2))
  shared := (Pll.nfracHigh h).set ((Pll.nintLow h).set 0 (BitVec.ofNat 1 nint))
    (BitVec.ofNat 7 (nfrac / 0x10000))
  nfracMid := (Pll.nfracMid h).set 0 (BitVec.ofNat 8 (nfrac / 0x100))
  nfracLow := (Pll.nfracLow h).set 0 (BitVec.ofNat 8 nfrac)

/-- The whole divider. -/
def nint (h : Half) (p : PackedDividers) : Nat :=
  ((Pll.nintHigh h).get p.nintHigh).toNat * 2 + ((Pll.nintLow h).get p.shared).toNat

/-- The fractional divider. -/
def nfrac (h : Half) (p : PackedDividers) : Nat :=
  ((Pll.nfracHigh h).get p.shared).toNat * 0x10000
    + ((Pll.nfracMid h).get p.nfracMid).toNat * 0x100 + ((Pll.nfracLow h).get p.nfracLow).toNat

/-- What is unpacked as the whole divider has 9 bits. -/
theorem nint_lt (h : Half) (p : PackedDividers) : p.nint h < 512 := by
  simp only [nint]
  omega

/-- What is unpacked as the fraction has 23 bits. -/
theorem nfrac_lt (h : Half) (p : PackedDividers) : p.nfrac h < nfracSteps := by
  have : nfracSteps = 8388608 := rfl
  simp only [nfrac]
  omega

/-- A whole divider of 9 bits unpacks to what was packed. -/
theorem nint_pack (h : Half) {n : Nat} (hn : n < 512) (f : Nat) : (pack h n f).nint h = n := by
  have low : (Pll.nintLow h).Disjoint (Pll.nfracHigh h) := by cases h <;> decide
  simp only [nint, pack, BitField.get_set_self, BitField.get_set_of_disjoint low,
    BitVec.toNat_ofNat]
  omega

/-- A fractional divider of 23 bits unpacks to what was packed. -/
theorem nfrac_pack (h : Half) (n : Nat) {f : Nat} (hf : f < nfracSteps) :
    (pack h n f).nfrac h = f := by
  have : nfracSteps = 8388608 := rfl
  simp only [nfrac, pack, BitField.get_set_self, BitVec.toNat_ofNat]
  omega

/-- Packing what was unpacked gives the same registers. -/
theorem pack_unpack (h : Half) (p : PackedDividers) : pack h (p.nint h) (p.nfrac h) = p := by
  rcases p with ⟨b0, b1, b2, b3⟩
  have low : (Pll.nfracHigh h).Disjoint (Pll.nintLow h) := by cases h <;> decide
  have hb1 := ((Pll.nintLow h).get b1).isLt
  have h1 : BitVec.ofNat 1 ((nint h ⟨b0, b1, b2, b3⟩)) = (Pll.nintLow h).get b1 := by
    apply BitVec.eq_of_toNat_eq
    simp only [nint, BitVec.toNat_ofNat]
    omega
  have h7 : BitVec.ofNat 7 (nfrac h ⟨b0, b1, b2, b3⟩ / 0x10000) = (Pll.nfracHigh h).get b1 := by
    apply BitVec.eq_of_toNat_eq
    simp only [nfrac, BitVec.toNat_ofNat]
    omega
  have h0 : BitVec.ofNat 8 (nint h ⟨b0, b1, b2, b3⟩ / 2) = b0 := by
    apply BitVec.eq_of_toNat_eq
    simp only [nint, BitField.get_full, BitVec.toNat_ofNat]
    omega
  have h2 : BitVec.ofNat 8 (nfrac h ⟨b0, b1, b2, b3⟩ / 0x100) = b2 := by
    apply BitVec.eq_of_toNat_eq
    simp only [nfrac, BitField.get_full, BitVec.toNat_ofNat]
    omega
  have h3 : BitVec.ofNat 8 (nfrac h ⟨b0, b1, b2, b3⟩) = b3 := by
    apply BitVec.eq_of_toNat_eq
    simp only [nfrac, BitField.get_full, BitVec.toNat_ofNat]
    omega
  simp only [pack, h0, h1, h2, h3, h7, BitField.set_full, BitField.set_set_get low]

end PackedDividers

end Transceiver
