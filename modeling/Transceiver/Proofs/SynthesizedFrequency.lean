import Mathlib.Data.List.Chain
import Transceiver.Frequency.Packing

/-!
# Synthesized frequencies

A PLL does not reach every frequency: the multiplier is rounded to the steps of its fraction, and
the frequency that the settings stand for is rounded to Hz again. Where the VCO is divided by eight
or more the steps are fine enough to get every frequency back. Where it is divided by less, a
frequency can come back 1 Hz off, but a frequency that has come back once stays the same from then
on, and no frequency crosses the edge of the high band on its way.
-/

namespace Transceiver

theorem nfracSteps_eq : nfracSteps = 8388608 :=
  rfl

theorem lowestHz_le_clampHz (request : Nat) : lowestHz ≤ clampHz request := by
  simp only [clampHz, lowestHz, highestHz]
  omega

theorem clampHz_le_highestHz (request : Nat) : clampHz request ≤ highestHz := by
  simp only [clampHz, highestHz]
  omega

/-- A tunable frequency is not clamped. -/
theorem clampHz_of_tunable {hz : Nat} (hlow : lowestHz ≤ hz) (hhigh : hz ≤ highestHz) :
    clampHz hz = hz := by
  simp only [clampHz]
  omega

/-- Bringing a request into the tunable range does not take it across the edge of the high band. -/
theorem highBand_clampHz (request : Nat) : highBandHz ≤ clampHz request ↔ highBandHz ≤ request := by
  simp only [clampHz, lowestHz, highestHz, highBandHz]
  omega

/-- Rounding to the nearest keeps the order. -/
theorem roundDiv_mono {m n : Nat} (h : m ≤ n) (d : Nat) : roundDiv m d ≤ roundDiv n d :=
  Nat.div_le_div_right (Nat.add_le_add_right h _)

/-! ## The divider of a band -/

/-- What the VCO is divided by at a tunable frequency. -/
def vcoRatio (hz : Nat) : Nat :=
  if hz ≤ 465000000 then 16 else if hz ≤ 930000000 then 8 else if hz ≤ 1860000000 then 4 else 2

/-- The VCO is divided by less at higher frequencies. -/
theorem vcoRatio_anti {hz hz' : Nat} (h : hz ≤ hz') : vcoRatio hz' ≤ vcoRatio hz := by
  simp only [vcoRatio]
  grind

/-- Up to 930 MHz the ratio is at least 8. -/
theorem vcoRatio_of_low {hz : Nat} (h : hz ≤ 930000000) : vcoRatio hz = 8 ∨ vcoRatio hz = 16 := by
  simp only [vcoRatio]
  grind

theorem vcoRatio_of_middle {hz : Nat} (hlow : 930000000 < hz) (hhigh : hz ≤ 1860000000) :
    vcoRatio hz = 4 := by
  simp only [vcoRatio]
  grind

theorem vcoRatio_of_high {hz : Nat} (h : 1860000000 < hz) : vcoRatio hz = 2 := by
  simp only [vcoRatio]
  grind

/-- The ratio is one of the fine or one of the coarse ones. The fine ratios give every frequency
back, and the coarse ones do not. -/
theorem vcoRatio_cases (hz : Nat) :
    (vcoRatio hz = 8 ∨ vcoRatio hz = 16) ∨ (vcoRatio hz = 2 ∨ vcoRatio hz = 4) := by
  simp only [vcoRatio]
  grind

namespace Band

/-- The second band starts where the first one ends. -/
def Adjacent (a b : Band) : Prop :=
  a.high = b.low

instance (a b : Band) : Decidable (a.Adjacent b) :=
  inferInstanceAs (Decidable (_ = _))

/-- Bands that follow each other leave nothing out above the lower end of the first. -/
theorem find?_of_chain {band : Band} {bands : List Band}
    (hchain : (band :: bands).IsChain Adjacent) {hz : Nat} (hlow : band.low < hz)
    (hhigh : hz ≤ ((band :: bands).getLast (by simp)).high) :
    ∃ found ∈ band :: bands, (band :: bands).find? (·.contains hz) = some found ∧
      found.low < hz ∧ hz ≤ found.high := by
  -- the bands are in order without gaps, so that the first one that reaches high enough is the one
  induction bands generalizing band with
  | nil =>
    have hcontains : band.contains hz := by
      simp only [List.getLast_singleton] at hhigh
      simp [contains, hhigh, Nat.le_of_lt hlow]
    exact ⟨band, by simp, List.find?_cons_of_pos hcontains, hlow, hhigh⟩
  | cons next rest ih =>
    by_cases hin : hz ≤ band.high
    · have hcontains : band.contains hz := by simp [contains, hin, Nat.le_of_lt hlow]
      exact ⟨band, by simp, List.find?_cons_of_pos hcontains, hlow, hin⟩
    · obtain ⟨hnext, hrest⟩ := List.isChain_cons_cons.1 hchain
      have hcontains : ¬ band.contains hz := by simp [contains, hin]
      have hlow' : next.low < hz := by
        rw [← hnext]
        omega
      obtain ⟨found, hmem, hfind, h⟩ := ih hrest hlow' (by simpa using hhigh)
      refine ⟨found, List.mem_cons_of_mem _ hmem, ?_, h⟩
      rw [← hfind]
      exact List.find?_cons_of_neg hcontains

/-- The code of a band divides the VCO alike all over the band. -/
theorem ratio_of_mem {band : Band} (h : band ∈ all) {hz : Nat} (hlow : band.low < hz)
    (hhigh : hz ≤ band.high) :
    3 ≤ band.code.toNat % 8 ∧ 1 <<< (band.code.toNat % 8 - 3) = vcoRatio hz := by
  have hends : ∀ band ∈ all, 3 ≤ band.code.toNat % 8 ∧
      1 <<< (band.code.toNat % 8 - 3) = vcoRatio (band.low + 1) ∧
      vcoRatio (band.low + 1) = vcoRatio band.high := by
    decide
  obtain ⟨hexponent, hfirst, hlast⟩ := hends band h
  have hle := vcoRatio_anti hhigh
  have hge := vcoRatio_anti (show band.low + 1 ≤ hz from hlow)
  exact ⟨hexponent, by omega⟩

/-- Every tunable frequency has a band, and its code divides the VCO by the ratio of the
frequency. -/
theorem find?_tunable {hz : Nat} (hlow : lowestHz ≤ hz) (hhigh : hz ≤ highestHz) :
    ∃ band, find? hz = some band ∧ 3 ≤ band.code.toNat % 8 ∧
      1 <<< (band.code.toNat % 8 - 3) = vcoRatio hz := by
  rcases Nat.eq_or_lt_of_le hlow with rfl | hlow
  · exact ⟨lowest, by decide⟩
  · have hchain : all.IsChain Adjacent := by decide
    obtain ⟨band, hmem, hfind, hl, hh⟩ := find?_of_chain hchain hlow hhigh
    exact ⟨band, hfind, ratio_of_mem hmem hl hh⟩

end Band

/-! ## Rounding to the steps of the fraction and back -/

/-- The multiplier that brings the reference clock to `x` times a frequency, in steps of the
fraction. -/
def multiplier (x hz : Nat) : Nat :=
  roundDiv (x * hz * nfracSteps) referenceHz

/-- The frequency that comes back when the VCO is divided by `x`. -/
def comesBack (x hz : Nat) : Nat :=
  roundDiv (referenceHz * multiplier x hz) (x * nfracSteps)

/-- What comes back keeps the order of what was asked for. -/
theorem comesBack_mono (x : Nat) {hz hz' : Nat} (h : hz ≤ hz') :
    comesBack x hz ≤ comesBack x hz' := by
  have hvco : x * hz * nfracSteps ≤ x * hz' * nfracSteps :=
    Nat.mul_le_mul_right _ (Nat.mul_le_mul_left _ h)
  exact roundDiv_mono (Nat.mul_le_mul_left _ (roundDiv_mono hvco _)) _

/-- Fine steps give every frequency back. -/
theorem comesBack_of_fine {x : Nat} (hx : x = 8 ∨ x = 16) (hz : Nat) : comesBack x hz = hz := by
  simp only [comesBack, multiplier, roundDiv, referenceHz, nfracSteps_eq]
  rcases hx with rfl | rfl <;> omega

/-- With coarse steps the frequency that comes back still has the multiplier it came from. -/
theorem multiplier_comesBack {x : Nat} (hx : x = 2 ∨ x = 4) (hz : Nat) :
    multiplier x (comesBack x hz) = multiplier x hz := by
  simp only [comesBack, multiplier, roundDiv, referenceHz, nfracSteps_eq]
  rcases hx with rfl | rfl <;> omega

/-- The edges of the coarse bands and of the high band come back, and so does what lies just below
the high band. -/
theorem comesBack_edges :
    comesBack 4 930000000 = 930000000 ∧ comesBack 4 1860000000 = 1860000000 ∧
      comesBack 2 1860000000 = 1860000000 ∧ comesBack 4 highBandHz = highBandHz ∧
      comesBack 4 (highBandHz - 1) = highBandHz - 1 ∧ comesBack 2 highestHz ≤ highestHz := by
  decide

/-- What has come back once comes back as it is. -/
theorem comesBack_comesBack {x : Nat} (hx : (x = 8 ∨ x = 16) ∨ (x = 2 ∨ x = 4)) (hz : Nat) :
    comesBack x (comesBack x hz) = comesBack x hz := by
  rcases hx with hfine | hcoarse
  · rw [comesBack_of_fine hfine]
  · rw [comesBack, multiplier_comesBack hcoarse, ← comesBack]

/-- A frequency comes back exactly, or it has one of the coarse ratios and comes back no lower and
no higher than the edges of that ratio. -/
theorem comesBack_range (hz : Nat) :
    let back := comesBack (vcoRatio hz) hz
    (hz ≤ 930000000 ∧ back = hz) ∨
      (930000000 < hz ∧ hz ≤ 1860000000 ∧ vcoRatio hz = 4 ∧
        930000000 ≤ back ∧ back ≤ 1860000000) ∨
      (1860000000 < hz ∧ vcoRatio hz = 2 ∧ 1860000000 ≤ back) := by
  obtain ⟨hedge₁, hedge₂, hedge₃, -, -, -⟩ := comesBack_edges
  intro back
  by_cases hmid : hz ≤ 930000000
  · exact .inl ⟨hmid, comesBack_of_fine (vcoRatio_of_low hmid) hz⟩
  by_cases hup : hz ≤ 1860000000
  · have hx : vcoRatio hz = 4 := vcoRatio_of_middle (by omega) hup
    have hge := comesBack_mono 4 (show 930000000 ≤ hz by omega)
    have hle := comesBack_mono 4 hup
    have hback : back = comesBack 4 hz := by simp only [back, hx]
    exact .inr (.inl ⟨by omega, hup, hx, by omega, by omega⟩)
  · have hx : vcoRatio hz = 2 := vcoRatio_of_high (by omega)
    have hge := comesBack_mono 2 (show 1860000000 ≤ hz by omega)
    have hback : back = comesBack 2 hz := by simp only [back, hx]
    exact .inr (.inr ⟨by omega, hx, by omega⟩)

/-- The ratio of the frequency that comes back is that of the frequency, but for the edges of the
coarse bands, which come back with the ratio below as well. -/
theorem comesBack_tunable {hz : Nat} (hlow : lowestHz ≤ hz) (hhigh : hz ≤ highestHz) :
    let back := comesBack (vcoRatio hz) hz
    (lowestHz ≤ back ∧ back ≤ highestHz) ∧ (highBandHz ≤ back ↔ highBandHz ≤ hz) ∧
      comesBack (vcoRatio back) back = back := by
  obtain ⟨-, hedge₂, -, hband, hbelow, htop⟩ := comesBack_edges
  have hidem := comesBack_comesBack (vcoRatio_cases hz) hz
  intro back
  simp only [lowestHz, highestHz, highBandHz] at *
  -- fine bands, the coarse band up to 1860 MHz, and the one above it
  rcases comesBack_range hz with ⟨hmid, hback⟩ | ⟨hmid, hup, hx, hge, hle⟩ | ⟨hup, hx, hge⟩
  · rw [show back = hz from hback]
    exact ⟨⟨hlow, hhigh⟩, Iff.rfl, hback⟩
  · have hback : back = comesBack 4 hz := by simp only [back, hx]
    refine ⟨⟨by omega, by omega⟩, ⟨fun h => ?_, fun h => ?_⟩, ?_⟩
    · -- what lies below the high band comes back no higher than what lies just below it
      refine Nat.le_of_not_lt fun hlt => ?_
      have := comesBack_mono 4 (show hz ≤ 1500000000 - 1 by omega)
      omega
    · have := comesBack_mono 4 h
      omega
    · rcases Nat.eq_or_lt_of_le hge with heq | hgt
      · rw [show back = 930000000 from heq.symm]
        exact comesBack_of_fine (by decide) _
      · rw [vcoRatio_of_middle hgt hle, hback]
        simpa only [hx] using hidem
  · have hback : back = comesBack 2 hz := by simp only [back, hx]
    have hle : back ≤ 3800000000 := by
      rw [hback]
      exact Nat.le_trans (comesBack_mono 2 hhigh) htop
    refine ⟨⟨by omega, hle⟩, ⟨by omega, by omega⟩, ?_⟩
    rcases Nat.eq_or_lt_of_le hge with heq | hgt
    · rw [show back = 1860000000 from heq.symm]
      exact hedge₂
    · rw [vcoRatio_of_high hgt, hback]
      simpa only [hx] using hidem

/-! ## The settings for a frequency -/

namespace Divider

/-- The settings for a request are made of the ratio and the multiplier of the tunable frequency
nearest to it, split into a whole part of 9 bits and a fraction of 23 bits. -/
structure Represents (d : Divider) (hz : Nat) : Prop where
  ratio : d.x = vcoRatio hz
  code : vcoDivider d.freqSel = .ok d.x
  coefficient : d.coefficient = multiplier d.x hz
  nint : d.nint < 512
  nfrac : d.nfrac < nfracSteps
  reference : d.reference = referenceHz

/-- The settings for a request stand for the frequency that it is clamped to, in the 9 and 23 bits
of the dividers. -/
theorem ofHz_represents (request : Nat) : (ofHz request).Represents (clampHz request) := by
  obtain ⟨band, hfind, hexponent, hratio⟩ :=
    Band.find?_tunable (lowestHz_le_clampHz request) (clampHz_le_highestHz request)
  have hcode : vcoDivider band.code = .ok (vcoRatio (clampHz request)) := by
    rw [vcoDivider, if_pos hexponent, hratio]
  have hvco : vcoRatio (clampHz request) * clampHz request ≤ 16 * 930000000 := by
    have hhigh : clampHz request ≤ 3800000000 := clampHz_le_highestHz request
    simp only [vcoRatio]
    grind
  unfold ofHz
  simp only [hfind, Option.getD_some, hratio]
  generalize hx : vcoRatio (clampHz request) = x at *
  have hmultiplier : multiplier x (clampHz request) =
      roundDiv (x * clampHz request * nfracSteps) referenceHz := rfl
  generalize x * clampHz request = vco at *
  -- the fraction is rounded to at most a whole step, and then the whole part is one more
  have hnint : vco / referenceHz < 511 := by
    simp only [referenceHz]
    omega
  have hsplit : vco / referenceHz * nfracSteps +
      roundDiv ((vco - vco / referenceHz * referenceHz) * nfracSteps) referenceHz =
        roundDiv (vco * nfracSteps) referenceHz := by
    simp only [roundDiv, referenceHz, nfracSteps_eq]
    omega
  have hnfrac : roundDiv ((vco - vco / referenceHz * referenceHz) * nfracSteps) referenceHz ≤
      nfracSteps := by
    simp only [roundDiv, referenceHz, nfracSteps_eq]
    omega
  split
  · next hcarry =>
    refine ⟨hx.symm, hcode, ?_, show vco / referenceHz + 1 < 512 by omega,
      show 0 < nfracSteps by decide, rfl⟩
    rw [hmultiplier, ← hsplit, hcarry]
    show (vco / referenceHz + 1) * nfracSteps + 0 = _
    rw [Nat.add_zero, Nat.succ_mul]
  · next hcarry =>
    refine ⟨hx.symm, hcode, ?_, show vco / referenceHz < 512 by omega,
      Nat.lt_of_le_of_ne hnfrac hcarry, rfl⟩
    rw [hmultiplier, ← hsplit]
    rfl

/-- The frequency that the settings for a request synthesize. -/
def synthesizedHz (request : Nat) : Nat :=
  comesBack (vcoRatio (clampHz request)) (clampHz request)

/-- The settings for a request never reach the bounds of the calculation that reads them back. -/
theorem hz?_ofHz (request : Nat) : (ofHz request).hz? = .ok (synthesizedHz request) := by
  have h := ofHz_represents request
  have hx : 0 < (ofHz request).x ∧ (ofHz request).x ≤ 16 := by
    have := vcoRatio_cases (clampHz request)
    have := h.ratio
    omega
  have hcoefficient : (ofHz request).coefficient < 512 * 8388608 := by
    have hnint := h.nint
    have hnfrac := h.nfrac
    simp only [Divider.coefficient, nfracSteps_eq] at *
    omega
  have hback : synthesizedHz request ≤ 3800000000 :=
    (comesBack_tunable (lowestHz_le_clampHz request) (clampHz_le_highestHz request)).1.2
  have heq : roundDiv (referenceHz * (ofHz request).coefficient) (ofHz request).divisor =
      synthesizedHz request := by
    rw [h.coefficient, h.ratio, divisor, h.ratio]
    rfl
  have hdivisor : (ofHz request).divisor = (ofHz request).x * 8388608 := rfl
  simp only [hz?, h.reference, heq]
  -- none of the checks fails: the divisor is not zero, and neither the product nor the sum overflows
  rw [if_neg, if_neg, if_neg, Nat.mod_eq_of_lt (by omega)]
  · omega
  · simp only [wordValues, referenceHz]
    omega
  · simp only [wordValues, referenceHz]
    omega

/-- What comes back is tunable again. At the ends of the range it does not leave the range. -/
theorem synthesizedHz_tunable (request : Nat) :
    lowestHz ≤ synthesizedHz request ∧ synthesizedHz request ≤ highestHz :=
  (comesBack_tunable (lowestHz_le_clampHz request) (clampHz_le_highestHz request)).1

/-- The synthesized frequency lies in the high band exactly when the requested one does. -/
theorem highBand_synthesizedHz (request : Nat) :
    highBandHz ≤ synthesizedHz request ↔ highBandHz ≤ request :=
  (comesBack_tunable (lowestHz_le_clampHz request) (clampHz_le_highestHz request)).2.1.trans
    (highBand_clampHz request)

/-- A synthesized frequency is synthesized exactly. -/
theorem synthesizedHz_synthesizedHz (request : Nat) :
    synthesizedHz (synthesizedHz request) = synthesizedHz request := by
  obtain ⟨hlow, hhigh⟩ := synthesizedHz_tunable request
  rw [synthesizedHz, clampHz_of_tunable hlow hhigh]
  exact (comesBack_tunable (lowestHz_le_clampHz request) (clampHz_le_highestHz request)).2.2

end Divider

end Transceiver
