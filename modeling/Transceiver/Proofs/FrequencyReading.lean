import Mathlib.Tactic.FieldSimp
import Transceiver.Proofs.FrequencyRoundTrip

/-!
# Reading a frequency

The divider registers may hold anything, and most of what they can hold is far from what a request
is programmed as. Still, every contents with a meaningful band code stands for dividers of bounded
width, and so for a frequency: the 64 bit arithmetic has room for all of them, and only the result
is cut to 32 bits. The words are followed here from the registers to the frequency, the unpacking by
shifts as well as the arithmetic, and so is the exact frequency.
-/

namespace Transceiver

open Procedure Register

/-! ## Frequencies of dividers -/

/-- Divides a word by another, unless that is zero. -/
def divWords {w : Nat} (a b : BitVec w) : Option (BitVec w) :=
  if b = 0 then none else some (a / b)

/-- A word that two fields are shifted into stands for what they add up to. -/
theorem toNat_shiftLeft_or {w : Nat} {high low : BitVec w} {k : Nat} (hlow : low.toNat < 2 ^ k)
    (hfits : high.toNat * 2 ^ k < 2 ^ w) :
    (high <<< k ||| low).toNat = high.toNat * 2 ^ k + low.toNat := by
  rw [BitVec.toNat_or, BitVec.toNat_shiftLeft, Nat.shiftLeft_eq, Nat.mod_eq_of_lt hfits,
    Nat.mul_comm, ← Nat.two_pow_add_eq_or_of_lt hlow]

namespace Divider

/-- Dividers that the registers of a half can hold. -/
structure Readable (d : Divider) : Prop where
  ratio : d.x ∈ [1, 2, 4, 8, 16]
  nint : d.nint < 2 ^ 9
  nfrac : d.nfrac < 2 ^ 23
  reference : d.reference = 38400000

/-- The frequency that dividers stand for, before it is rounded. -/
def exactHz (d : Divider) : ℚ :=
  38400000 * (d.nint + d.nfrac / 2 ^ 23) / d.x

variable {d : Divider}

theorem Readable.ratio_bounds (h : d.Readable) : 0 < d.x ∧ d.x ≤ 16 := by
  have hall : ∀ x ∈ [1, 2, 4, 8, 16], 0 < x ∧ x ≤ 16 := by decide
  exact hall d.x h.ratio

theorem Readable.exactHz_eq (h : d.Readable) :
    d.exactHz = ((d.reference * d.coefficient : Nat) : ℚ) / (d.divisor : Nat) := by
  have hx : (d.x : ℚ) ≠ 0 := Nat.cast_ne_zero.2 h.ratio_bounds.1.ne'
  rw [exactHz, h.reference, coefficient, divisor, nfracSteps_eq]
  push_cast
  field_simp
  ring

/-- No step of the calculation leaves its word, and nothing is divided by zero. -/
theorem Readable.hz?_eq (h : d.Readable) :
    d.hz? = .ok (roundDiv (d.reference * d.coefficient) d.divisor % 4294967296) := by
  have hnint := h.nint
  have hnfrac := h.nfrac
  have hx := h.ratio_bounds
  -- 38400000 times a coefficient below 2 ^ 32 leaves room for half a divisor in 64 bits
  have hroom : d.reference * d.coefficient + d.divisor / 2 < wordValues := by
    rw [h.reference, coefficient, divisor, nfracSteps_eq, wordValues]
    omega
  have hdivisor : d.divisor ≠ 0 := by
    rw [divisor, nfracSteps_eq]
    omega
  rw [hz?, if_neg (by omega), if_neg (by omega), if_neg hdivisor]

/-- The frequency is the exact one rounded to the nearest Hz, and then cut to 32 bits. -/
theorem Readable.exists_round (h : d.Readable) :
    ∃ rounded : Nat, round d.exactHz = rounded ∧ d.hz? = .ok (rounded % 4294967296) := by
  have hdivisor : 0 < d.divisor := by
    have hx := h.ratio_bounds.1
    rw [divisor, nfracSteps_eq]
    omega
  refine ⟨_, ?_, h.hz?_eq⟩
  rw [h.exactHz_eq, ← roundDiv_eq_round _ hdivisor]

end Divider

/-- The frequency of dividers, calculated in words and cut to 32 bits in the end. -/
def DividerWords.hz? (d : DividerWords) : Option (BitVec 32) := do
  let coefficient ← addWords (d.nint.setWidth 64 <<< nfracBits) (d.nfrac.setWidth 64)
  let divisor := d.x.setWidth 64 <<< nfracBits
  let sum ← addWords (← mulWords (d.reference.setWidth 64) coefficient) (divisor >>> 1)
  let quotient ← divWords sum divisor
  return quotient.setWidth 32

/-- The calculation in words comes to the frequency. -/
theorem DividerWords.hz?_eq {d : DividerWords} (h : d.settings.Readable) :
    d.hz?.map BitVec.toNat = d.settings.hz?.toOption := by
  have hx := h.ratio_bounds
  have hnint := h.nint
  have hnfrac := h.nfrac
  have hreference := h.reference
  simp only [settings] at hx hnint hnfrac hreference
  have hwide {w : Nat} (word : BitVec w) (hw : w ≤ 64) : (word.setWidth 64).toNat = word.toNat := by
    rw [BitVec.toNat_setWidth]
    exact Nat.mod_eq_of_lt (Nat.lt_of_lt_of_le word.isLt (Nat.pow_le_pow_right (by decide) hw))
  have hshift {w : Nat} (word : BitVec w) (hw : w ≤ 64) (hlt : word.toNat < 2 ^ 9) :
      (word.setWidth 64 <<< nfracBits).toNat = word.toNat * nfracSteps := by
    rw [BitVec.toNat_shiftLeft, Nat.shiftLeft_eq, hwide word hw, nfracSteps_eq, nfracBits]
    omega
  have hwhole := hshift d.nint (by decide) hnint
  have hdivisor := hshift d.x (by decide) (by omega)
  have hfraction := hwide d.nfrac (by decide)
  have hclock := hwide d.reference (by decide)
  obtain ⟨coefficient, hadd, hcoefficient⟩ :=
    comes_addWords (a := d.nint.setWidth 64 <<< nfracBits) (b := d.nfrac.setWidth 64) (by
      rw [hwhole, hfraction, nfracSteps_eq]
      omega)
  rw [hwhole, hfraction] at hcoefficient
  obtain ⟨product, hmul, hproduct⟩ :=
    comes_mulWords (a := d.reference.setWidth 64) (b := coefficient) (by
      rw [hclock, hcoefficient, hreference, nfracSteps_eq]
      omega)
  rw [hclock, hcoefficient] at hproduct
  have hhalf : (d.x.setWidth 64 <<< nfracBits >>> 1).toNat = d.x.toNat * nfracSteps / 2 := by
    rw [BitVec.toNat_ushiftRight, hdivisor, Nat.shiftRight_eq_div_pow]
  obtain ⟨sum, hround, hsum⟩ :=
    comes_addWords (a := product) (b := d.x.setWidth 64 <<< nfracBits >>> 1) (by
      rw [hproduct, hhalf, hreference, nfracSteps_eq]
      omega)
  rw [hproduct, hhalf] at hsum
  -- the divisor is a ratio of at least 1, shifted within its word
  have hnonzero : d.x.setWidth 64 <<< nfracBits ≠ 0 := by
    intro hzero
    rw [hzero, nfracSteps_eq] at hdivisor
    simp only [BitVec.ofNat_eq_ofNat, BitVec.toNat_ofNat] at hdivisor
    omega
  have hcalculated : d.hz? = some ((sum / (d.x.setWidth 64 <<< nfracBits)).setWidth 32) := by
    rw [hz?, hadd, Option.bind_eq_bind, Option.bind_some, hmul, Option.bind_some, hround,
      Option.bind_some, divWords, if_neg hnonzero]
    rfl
  rw [hcalculated, h.hz?_eq, Option.map_some, BitVec.toNat_setWidth, BitVec.toNat_udiv, hsum,
    hdivisor]
  rfl

namespace Synthesizer

/-! ## Dividers of registers -/

/-- What the VCO is divided by at a band code, in a word, unless the code has no meaning. -/
def ratioByte (code : BitVec 6) : Option (BitVec 8) :=
  let exponent : BitVec 8 := code.setWidth 8 &&& 7
  if 3 ≤ exponent then do powerWord 8 (← subWords exponent 3) else none

/-- The settings that the registers of a half hold, in words into which the fields are shifted. -/
def dividersInWords (h : Half) (r : RegisterFile) : Option DividerWords := do
  let x ← ratioByte (r.field (Pll.freqSel h))
  return {
    x
    nint := (r.field (Pll.nintHigh h)).setWidth 16 <<< 1 |||
      (r.field (Pll.nintLow h)).setWidth 16
    nfrac := (r.field (Pll.nfracHigh h)).setWidth 32 <<< 16 |||
      (r.field (Pll.nfracMid h)).setWidth 32 <<< 8 ||| (r.field (Pll.nfracLow h)).setWidth 32
    freqSel := (r.field (Pll.freqSel h)).setWidth 8
    reference := BitVec.ofNat 32 referenceHz }

/-- Whether a band code has a meaning. -/
theorem vcoDivider_eq (code : BitVec 6) :
    vcoDivider code =
      if 3 ≤ code.toNat % 8 then .ok (2 ^ (code.toNat % 8 - 3)) else .error .unexpectedState := by
  simp only [vcoDivider, Nat.one_shiftLeft]

theorem ratioByte_eq (code : BitVec 6) :
    (ratioByte code).map BitVec.toNat = (vcoDivider code).toOption := by
  revert code
  decide

/-- The whole part of the multiplier is put together as it is packed. -/
theorem toNat_nint (high : BitVec 8) (low : BitVec 1) :
    (high.setWidth 16 <<< 1 ||| low.setWidth 16).toNat = high.toNat * 2 + low.toNat := by
  have hhigh : (high.setWidth 16).toNat = high.toNat := by
    rw [BitVec.toNat_setWidth]
    omega
  have hlow : (low.setWidth 16).toNat = low.toNat := by
    rw [BitVec.toNat_setWidth]
    omega
  rw [toNat_shiftLeft_or (by omega) (by omega), hhigh, hlow, Nat.pow_one]

/-- The fraction of the multiplier is put together as it is packed. -/
theorem toNat_nfrac (high : BitVec 7) (mid low : BitVec 8) :
    (high.setWidth 32 <<< 16 ||| mid.setWidth 32 <<< 8 ||| low.setWidth 32).toNat =
      high.toNat * 0x10000 + mid.toNat * 0x100 + low.toNat := by
  have hhigh : (high.setWidth 32).toNat = high.toNat := by
    rw [BitVec.toNat_setWidth]
    omega
  have hbyte (byte : BitVec 8) : (byte.setWidth 32).toNat = byte.toNat := by
    rw [BitVec.toNat_setWidth]
    omega
  -- the two lower bytes are put together first, and the upper bits stand above both
  have hrest : (mid.setWidth 32 <<< 8 ||| low.setWidth 32).toNat =
      mid.toNat * 2 ^ 8 + low.toNat := by
    have hmid := hbyte mid
    have hlow := hbyte low
    rw [toNat_shiftLeft_or (by omega) (by omega), hmid, hlow]
  rw [BitVec.or_assoc, toNat_shiftLeft_or (by omega) (by omega), hhigh, hrest]
  omega

/-- The settings that the registers hold, field by field. -/
def settingsOf (h : Half) (r : RegisterFile) (x : Nat) : Divider where
  x
  nint := (r.field (Pll.nintHigh h)).toNat * 2 + (r.field (Pll.nintLow h)).toNat
  nfrac := (r.field (Pll.nfracHigh h)).toNat * 0x10000 + (r.field (Pll.nfracMid h)).toNat * 0x100 +
    (r.field (Pll.nfracLow h)).toNat
  freqSel := r.field (Pll.freqSel h)
  reference := 38400000

theorem dividersOf_eq (h : Half) (r : RegisterFile) :
    dividersOf h r = (vcoDivider (r.field (Pll.freqSel h))).map (settingsOf h r) := by
  cases h <;> rfl

/-- Nothing of the settings is lost in the words. -/
theorem dividersInWords_eq (h : Half) (r : RegisterFile) :
    (dividersInWords h r).map DividerWords.settings = (dividersOf h r).toOption := by
  have hratio := ratioByte_eq (r.field (Pll.freqSel h))
  have hcode (code : BitVec 6) : (code.setWidth 8).setWidth 6 = code := by
    revert code
    decide
  have hreference : (BitVec.ofNat 32 referenceHz).toNat = 38400000 := by decide
  rw [dividersInWords, dividersOf_eq]
  -- both fail for the same band codes
  cases hx : ratioByte (r.field (Pll.freqSel h)) with
  | none =>
    rw [hx, Option.map_none] at hratio
    cases hv : vcoDivider (r.field (Pll.freqSel h)) with
    | error fault => rfl
    | ok x =>
      rw [hv] at hratio
      cases hratio
  | some x =>
    rw [hx, Option.map_some] at hratio
    cases hv : vcoDivider (r.field (Pll.freqSel h)) with
    | error fault =>
      rw [hv] at hratio
      cases hratio
    | ok x' =>
      rw [hv] at hratio
      obtain rfl : x.toNat = x' := Option.some.inj hratio
      simp only [Option.bind_eq_bind, Option.bind_some, Option.pure_def, Option.map_some,
        DividerWords.settings, toNat_nint, toNat_nfrac, hcode, hreference]
      rfl

/-- Whatever the registers hold, the settings with a meaningful code keep to their bounds. -/
theorem readable_settingsOf (h : Half) (r : RegisterFile) {code : BitVec 6}
    (hcode : 3 ≤ code.toNat % 8) : (settingsOf h r (2 ^ (code.toNat % 8 - 3))).Readable where
  ratio := by
    have hall : ∀ k < 5, 2 ^ k ∈ [1, 2, 4, 8, 16] := by decide
    exact hall _ (by omega)
  nint := by
    simp only [settingsOf]
    omega
  nfrac := by
    simp only [settingsOf]
    omega
  reference := rfl

/-- A half shows dividers and a frequency, and these are right. -/
structure Reads (h : Half) (c : Chip) (d : Divider) (hz : Nat) : Prop where
  dividers : c.shows (dividers h) = .ok d
  frequency : c.shows (frequencyHz h) = .ok hz
  /-- The dividers are those of the register fields. -/
  fields : d = settingsOf h c.registers (2 ^ ((c.registers.field (Pll.freqSel h)).toNat % 8 - 3))
  bounds : d.x ∈ [1, 2, 4, 8, 16] ∧ d.nint < 2 ^ 9 ∧ d.nfrac < 2 ^ 23
  /-- The frequency is the exact one to the nearest Hz, a half upwards, cut to 32 bits. -/
  rounded : (hz : ℤ) = round (38400000 * (d.nint + d.nfrac / 2 ^ 23) / d.x : ℚ) % 2 ^ 32
  /-- Nothing is cut off where the frequency fits. -/
  fits : round (38400000 * (d.nint + d.nfrac / 2 ^ 23) / d.x : ℚ) < 2 ^ 32 →
    (hz : ℤ) = round (38400000 * (d.nint + d.nfrac / 2 ^ 23) / d.x : ℚ)
  /-- The words come to the same, and no step leaves its word. -/
  words : ∃ words word, dividersInWords h c.registers = some words ∧ words.settings = d ∧
    words.hz? = some word ∧ word.toNat = hz

theorem exists_reads (h : Half) (c : Chip)
    (hcode : 3 ≤ (c.registers.field (Pll.freqSel h)).toNat % 8) : ∃ d hz, Reads h c d hz := by
  obtain ⟨d, hd⟩ : ∃ d, d = settingsOf h c.registers
      (2 ^ ((c.registers.field (Pll.freqSel h)).toNat % 8 - 3)) := ⟨_, rfl⟩
  have hreadable : d.Readable := hd ▸ readable_settingsOf h c.registers hcode
  have hdividers : dividersOf h c.registers = .ok d := by
    rw [dividersOf_eq, vcoDivider_eq, if_pos hcode, hd]
    rfl
  obtain ⟨rounded, hrounded, hhz⟩ := hreadable.exists_round
  unfold Divider.exactHz at hrounded
  have hfrequency : frequencyOf h c.registers = .ok (rounded % 4294967296) := by
    rw [frequencyOf, hdividers, Except.bind, hhz]
    rfl
  -- the same settings in words, where each step has to fit its width
  have hwords := dividersInWords_eq h c.registers
  rw [hdividers] at hwords
  obtain ⟨words, hwords, hsettings⟩ := Option.map_eq_some_iff.1 hwords
  have hword := words.hz?_eq (hsettings ▸ hreadable)
  rw [hsettings, hhz] at hword
  obtain ⟨word, hword, htoNat⟩ := Option.map_eq_some_iff.1 hword
  refine ⟨d, rounded % 4294967296, {
    dividers := (shows_dividers c h).trans hdividers
    frequency := (Loopback.shows_frequencyHz c h).trans hfrequency
    fields := hd
    bounds := ⟨hreadable.ratio, hreadable.nint, hreadable.nfrac⟩
    rounded := ?_
    fits := ?_
    words := ⟨words, word, hwords, hsettings, hword, htoNat⟩ }⟩
  · rw [hrounded]
    exact Int.natCast_mod _ _
  · rw [hrounded]
    omega

/-- Reading the frequency of a half is sound for all contents of its registers. The reading fails
for the band codes without a meaning and for no others. Otherwise the dividers are in range and the
frequency is right. -/
theorem reading_sound (h : Half) (c : Chip) :
    let code := c.registers.field (Pll.freqSel h)
    (c.shows (dividers h) = .error .unexpectedState ↔ code.toNat % 8 < 3) ∧
      (c.shows (frequencyHz h) = .error .unexpectedState ↔ code.toNat % 8 < 3) ∧
      (¬ code.toNat % 8 < 3 → ∃ d hz, Reads h c d hz) := by
  intro code
  by_cases hcode : code.toNat % 8 < 3
  · have hdividers : dividersOf h c.registers = .error .unexpectedState := by
      rw [dividersOf_eq, vcoDivider_eq, if_neg (Nat.not_le.2 hcode)]
      rfl
    have hfrequency : frequencyOf h c.registers = .error .unexpectedState := by
      rw [frequencyOf, hdividers]
      rfl
    rw [shows_dividers, Loopback.shows_frequencyHz]
    exact ⟨iff_of_true hdividers hcode, iff_of_true hfrequency hcode, fun h => absurd hcode h⟩
  · obtain ⟨d, hz, hreads⟩ := exists_reads h c (Nat.not_lt.1 hcode)
    refine ⟨iff_of_false ?_ hcode, iff_of_false ?_ hcode, fun _ => ⟨d, hz, hreads⟩⟩
    · rw [hreads.dividers]
      rintro ⟨⟩
    · rw [hreads.frequency]
      rintro ⟨⟩

end Synthesizer

end Transceiver
