import Transceiver.Word

/-!
# Bit fields

A bit field is a run of adjacent bits in one register. Its value is a bit vector of the field's
own width, so a value is always in range: `set` cannot touch another field, and `get` cannot see
one. The three laws at the end (read back, keep the rest, write back) are all that the rest of
the library needs to know about `get` and `set`.
-/

namespace Transceiver

/-- A run of `width` bits of the register at `address`, the lowest at bit `offset`. -/
structure BitField (width : Nat) where
  address : Address
  offset : Nat
  fits : offset + width ≤ 8 := by decide

namespace BitField

variable {w : Nat}

/-- The ones of a field's width, at the bottom of a byte. -/
def mask (_ : BitField w) : Byte :=
  (BitVec.allOnes w).setWidth 8

/-- The value of the field in a register byte. -/
def get (f : BitField w) (b : Byte) : BitVec w :=
  b.extractLsb' f.offset w

/-- The register byte with the field set to `v`. -/
def set (f : BitField w) (b : Byte) (v : BitVec w) : Byte :=
  (b &&& ~~~(f.mask <<< f.offset)) ||| (v.setWidth 8 <<< f.offset)

/-- Bit `i` of a byte after `set` comes from the value inside the field, from the byte outside. -/
theorem getLsbD_set (f : BitField w) (b : Byte) (v : BitVec w) (i : Nat) :
    (f.set b v).getLsbD i =
      if f.offset ≤ i ∧ i < f.offset + w then v.getLsbD (i - f.offset) else b.getLsbD i := by
  have hf := f.fits
  simp only [set, mask, BitVec.getLsbD_or, BitVec.getLsbD_and, BitVec.getLsbD_not,
    BitVec.getLsbD_shiftLeft, BitVec.getLsbD_setWidth, BitVec.getLsbD_allOnes]
  by_cases hlo : f.offset ≤ i
  · by_cases hhi : i < f.offset + w
    · have h8 : i < 8 := by omega
      have hw : i - f.offset < w := by omega
      have h8' : i - f.offset < 8 := by omega
      simp [hlo, hhi, h8, hw, h8', Nat.not_lt.2 hlo]
    · have hw : ¬ i - f.offset < w := by omega
      by_cases h8 : i < 8
      · simp [hhi, h8, hw, BitVec.getLsbD_of_ge v (i - f.offset) (by omega)]
      · simp [hhi, h8, BitVec.getLsbD_of_ge b i (by omega)]
  · by_cases h8 : i < 8
    · simp [hlo, h8, Nat.lt_of_not_le hlo]
    · omega

/-- Bit `i` of a field's value is bit `offset + i` of the register. -/
theorem getLsbD_get (f : BitField w) (b : Byte) (i : Nat) :
    (f.get b).getLsbD i = (decide (i < w) && b.getLsbD (f.offset + i)) := by
  simp [get, BitVec.getLsbD_extractLsb']

/-- A field reads back what was written to it. -/
@[simp] theorem get_set_self (f : BitField w) (b : Byte) (v : BitVec w) :
    f.get (f.set b v) = v := by
  apply BitVec.eq_of_getLsbD_eq
  intro i hi
  rw [getLsbD_get, getLsbD_set]
  simp [hi]

/-- Two fields share no bit of a register byte. -/
def Disjoint {w' : Nat} (f : BitField w) (g : BitField w') : Prop :=
  f.offset + w ≤ g.offset ∨ g.offset + w' ≤ f.offset

instance {w' : Nat} (f : BitField w) (g : BitField w') : Decidable (f.Disjoint g) :=
  inferInstanceAs (Decidable (_ ∨ _))

/-- Writing one field leaves a disjoint one as it was. -/
theorem get_set_of_disjoint {w' : Nat} {f : BitField w} {g : BitField w'}
    (h : f.Disjoint g) (b : Byte) (v : BitVec w') : f.get (g.set b v) = f.get b := by
  apply BitVec.eq_of_getLsbD_eq
  intro i hi
  rw [getLsbD_get, getLsbD_get, getLsbD_set]
  have : ¬ (g.offset ≤ f.offset + i ∧ f.offset + i < g.offset + w') := by
    rcases h with h | h <;> omega
  simp [this]

/-- Writing back what a field holds changes nothing. -/
@[simp] theorem set_get_self (f : BitField w) (b : Byte) : f.set b (f.get b) = b := by
  apply BitVec.eq_of_getLsbD_eq
  intro i _
  rw [getLsbD_set, getLsbD_get]
  split
  · next h =>
    have : f.offset + (i - f.offset) = i := by omega
    simp [this, show i - f.offset < w by omega]
  · rfl

/-! ## Fields that fill a register -/

/-- Two disjoint fields of eight bits together make up the register. -/
theorem set_set_get {w' : Nat} {f : BitField w} {g : BitField w'} (h : f.Disjoint g)
    (hw : w + w' = 8) (b c : Byte) : f.set (g.set b (g.get c)) (f.get c) = c := by
  have hf := f.fits
  have hg := g.fits
  apply BitVec.eq_of_getLsbD_eq
  intro i hi
  rw [getLsbD_set, getLsbD_set, getLsbD_get, getLsbD_get]
  by_cases hif : f.offset ≤ i ∧ i < f.offset + w
  · rw [if_pos hif, show f.offset + (i - f.offset) = i by omega]
    simp [show i - f.offset < w by omega]
  · have hig : g.offset ≤ i ∧ i < g.offset + w' := by
      rcases h with h | h <;> omega
    rw [if_neg hif, if_pos hig, show g.offset + (i - g.offset) = i by omega]
    simp [show i - g.offset < w' by omega]

/-- A field of eight bits is the register. -/
theorem get_full (f : BitField 8) (b : Byte) : f.get b = b := by
  have hf := f.fits
  apply BitVec.eq_of_getLsbD_eq
  intro i hi
  rw [getLsbD_get, show f.offset + i = i by omega]
  simp [hi]

/-- Writing a field of eight bits writes the register. -/
theorem set_full (f : BitField 8) (b v : Byte) : f.set b v = v := by
  rw [← get_full f (f.set b v), get_set_self]

/-! ## Flags -/

/-- Whether the flag is set in a register byte. -/
def isSet (f : BitField 1) (b : Byte) : Bool :=
  f.get b == 1#1

/-- The register byte with the flag set or cleared. -/
def put (f : BitField 1) (b : Byte) (on : Bool) : Byte :=
  f.set b (BitVec.ofBool on)

/-- A flag reads back what was put. -/
@[simp] theorem isSet_put (f : BitField 1) (b : Byte) (on : Bool) : f.isSet (f.put b on) = on := by
  cases on <;> simp [isSet, put]

/-- Putting a flag leaves a disjoint field as it was. -/
theorem get_put_of_disjoint {f : BitField w} {g : BitField 1} (h : f.Disjoint g) (b : Byte)
    (on : Bool) : f.get (g.put b on) = f.get b :=
  get_set_of_disjoint h b _

/-- Writing a field leaves a disjoint flag as it was. -/
theorem isSet_set_of_disjoint {f : BitField 1} {g : BitField w} (h : f.Disjoint g) (b : Byte)
    (v : BitVec w) : f.isSet (g.set b v) = f.isSet b := by
  rw [isSet, isSet, get_set_of_disjoint h]

/-- Putting a flag leaves a disjoint one as it was. -/
theorem isSet_put_of_disjoint {f g : BitField 1} (h : f.Disjoint g) (b : Byte) (on : Bool) :
    f.isSet (g.put b on) = f.isSet b :=
  isSet_set_of_disjoint h b _

end BitField

/-- A field of one bit. -/
abbrev Flag := BitField 1

end Transceiver
