import Mathlib.Algebra.Order.Round
import Mathlib.Data.Rat.Floor
import Mathlib.Tactic.Linarith
import Transceiver.Proofs.SynthesizedFrequency

/-!
# The arithmetic of the dividers

The settings for a frequency are calculated in words: frequencies have 32 bits, products 64, and the
results are cut to the widths that they are stored in. `Divider.inWords` calculates so, and gives up
as soon as a step leaves its word. It turns out to be the same calculation as the exact one: the
band table covers every tunable frequency, the VCO runs between 3.72 and 7.6 GHz in every band, and
at such frequencies no step comes near the end of its word.
-/

namespace Transceiver

/-! ## Bands -/

namespace Band

/-- A tunable frequency has a band, and no band that contains the frequency lies below that one. -/
theorem find?_lowest {hz : Nat} (hlow : lowestHz ≤ hz) (hhigh : hz ≤ highestHz) :
    ∃ band ∈ all, find? hz = some band ∧ band.contains hz ∧
      ∀ other ∈ all, other.contains hz → band.low ≤ other.low := by
  rcases Nat.eq_or_lt_of_le hlow with rfl | hlow
  · refine ⟨lowest, by decide, by decide, by decide, fun other hmem _ => ?_⟩
    have hall : ∀ other ∈ all, lowest.low ≤ other.low := by decide
    exact hall other hmem
  · have hchain : all.IsChain Adjacent := by decide
    obtain ⟨band, hmem, hfind, hl, hh⟩ := find?_of_chain hchain hlow hhigh
    refine ⟨band, hmem, hfind, ?_, fun other hother hcontains => ?_⟩
    · simp [contains, hh, Nat.le_of_lt hl]
    · -- a band that starts lower ends no higher than where this one starts
      have hordered : ∀ a ∈ all, ∀ b ∈ all, a.low < b.low → a.high ≤ b.low := by decide
      simp only [contains, Bool.and_eq_true, decide_eq_true_eq] at hcontains
      refine Nat.le_of_not_lt fun hlt => ?_
      have := hordered other hother band hmem hlt
      omega

end Band

/-! ## The VCO -/

/-- At every tunable frequency the VCO runs between 3.72 and 7.6 GHz. -/
theorem vco_bounds {hz : Nat} (hlow : lowestHz ≤ hz) (hhigh : hz ≤ highestHz) :
    3720000000 ≤ vcoRatio hz * hz ∧ vcoRatio hz * hz ≤ 7600000000 := by
  simp only [lowestHz, highestHz] at hlow hhigh
  simp only [vcoRatio]
  split
  · omega
  · split
    · omega
    · split <;> omega

/-- Rounding in whole numbers is rounding to nearest, a half upwards. -/
theorem roundDiv_eq_round (n : Nat) {d : Nat} (hd : 0 < d) :
    (roundDiv n d : ℤ) = round ((n : ℚ) / d) := by
  have hfloor : 2 * (d * roundDiv n d) ≤ 2 * n + d ∧
      2 * n + d < 2 * (d * roundDiv n d) + 2 * d := by
    have hsplit := Nat.div_add_mod (n + d / 2) d
    have hmod := Nat.mod_lt (n + d / 2) hd
    rw [← roundDiv] at hsplit
    omega
  have hpos : (0 : ℚ) < d := by exact_mod_cast hd
  have hbelow : (2 : ℚ) * (d * (roundDiv n d : ℕ)) ≤ 2 * n + d := by exact_mod_cast hfloor.1
  have habove : (2 : ℚ) * n + d < 2 * (d * (roundDiv n d : ℕ)) + 2 * d := by
    exact_mod_cast hfloor.2
  rw [round_eq, eq_comm, Int.floor_eq_iff, Int.cast_natCast]
  constructor
  · rw [← sub_le_iff_le_add, le_div_iff₀ hpos]
    linarith
  · rw [← lt_sub_iff_add_lt, div_lt_iff₀ hpos]
    linarith

/-! ## Checked words -/

section Words

variable {w : Nat}

/-- Adds two words, unless the sum leaves the word. -/
def addWords (a b : BitVec w) : Option (BitVec w) :=
  if a.uaddOverflow b then none else some (a + b)

/-- Subtracts a word from another, unless the difference leaves the word. -/
def subWords (a b : BitVec w) : Option (BitVec w) :=
  if a.usubOverflow b then none else some (a - b)

/-- Multiplies two words, unless the product leaves the word. -/
def mulWords (a b : BitVec w) : Option (BitVec w) :=
  if a.umulOverflow b then none else some (a * b)

/-- The power of two with an exponent, unless that is beyond the word. -/
def powerWord (w : Nat) (exponent : Byte) : Option (BitVec w) :=
  if exponent.toNat < w then some (1#w <<< exponent.toNat) else none

/-- The calculation comes to a word that stands for the number. -/
def Comes (calculated : Option (BitVec w)) (n : Nat) : Prop :=
  ∃ word, calculated = some word ∧ word.toNat = n

theorem comes_addWords {a b : BitVec w} (h : a.toNat + b.toNat < 2 ^ w) :
    Comes (addWords a b) (a.toNat + b.toNat) := by
  refine ⟨a + b, ?_, ?_⟩
  · simp [addWords, BitVec.uaddOverflow, h]
  · rw [BitVec.toNat_add, Nat.mod_eq_of_lt h]

theorem comes_subWords {a b : BitVec w} (h : b.toNat ≤ a.toNat) :
    Comes (subWords a b) (a.toNat - b.toNat) := by
  refine ⟨a - b, ?_, BitVec.toNat_sub_of_le (BitVec.le_def.2 h)⟩
  simp [subWords, BitVec.usubOverflow, h]

theorem comes_mulWords {a b : BitVec w} (h : a.toNat * b.toNat < 2 ^ w) :
    Comes (mulWords a b) (a.toNat * b.toNat) := by
  refine ⟨a * b, ?_, ?_⟩
  · simp [mulWords, BitVec.umulOverflow, h]
  · rw [BitVec.toNat_mul, Nat.mod_eq_of_lt h]

end Words

/-! ## The settings in words -/

/-- The settings of a PLL in the words that they are stored in. -/
structure DividerWords where
  x : BitVec 8
  nint : BitVec 16
  nfrac : BitVec 32
  freqSel : BitVec 8
  reference : BitVec 32

/-- The settings that some words stand for. -/
def DividerWords.settings (d : DividerWords) : Divider where
  x := d.x.toNat
  nint := d.nint.toNat
  nfrac := d.nfrac.toNat
  freqSel := d.freqSel.setWidth 6
  reference := d.reference.toNat

namespace Divider

/-- The tunable frequency nearest to a request. -/
def clampWord (request : BitVec 32) : BitVec 32 :=
  let low := BitVec.ofNat 32 lowestHz
  let high := BitVec.ofNat 32 highestHz
  let raised := if request < low then low else request
  if high < raised then high else raised

/-- What the VCO is divided by at a band code. -/
def ratioInWords (code : BitVec 8) : Option (BitVec 64) := do
  powerWord 64 (← subWords (code &&& 7) 3)

/-- A fraction that has been rounded up to a whole step is carried into the whole part. -/
def carryInWords (nint nfrac : BitVec 64) : Option (BitVec 64 × BitVec 64) :=
  if nfrac = 1#64 <<< nfracBits then (addWords nint 1).map fun nint => (nint, 0)
  else some (nint, nfrac)

/-- The reference clock, widened for calculations. -/
def referenceWord : BitVec 64 :=
  BitVec.ofNat 64 referenceHz

/-- The whole part and the fraction of the multiplier for the VCO at a frequency. -/
def multiplierInWords (vco : BitVec 64) : Option (BitVec 64 × BitVec 64) := do
  let nint := vco / referenceWord
  let rest ← subWords vco (← mulWords nint referenceWord)
  let sum ← addWords (rest <<< nfracBits) (referenceWord / 2)
  carryInWords nint (sum / referenceWord)

/-- The settings for a request, calculated in words. The results are cut to the widths that they are
stored in, whatever that takes off them. -/
def inWords (request : BitVec 32) : Option DividerWords := do
  let hz := clampWord request
  let code : BitVec 8 := ((Band.find? hz.toNat).getD Band.lowest).code.setWidth 8
  let x ← ratioInWords code
  let (nint, nfrac) ← multiplierInWords (← mulWords x (hz.setWidth 64))
  return {
    x := x.setWidth 8, nint := nint.setWidth 16, nfrac := nfrac.setWidth 32, freqSel := code
    reference := BitVec.ofNat 32 referenceHz }

theorem toNat_clampWord (request : BitVec 32) :
    (clampWord request).toNat = clampHz request.toNat := by
  have hlow : (BitVec.ofNat 32 lowestHz).toNat = lowestHz := by decide
  have hhigh : (BitVec.ofNat 32 highestHz).toNat = highestHz := by decide
  simp only [clampWord, BitVec.lt_def, clampHz]
  split <;> split <;> omega

/-- A band code with a meaning gives its ratio. -/
theorem comes_ratioInWords {code : BitVec 6} (h : 3 ≤ code.toNat % 8) :
    Comes (ratioInWords (code.setWidth 8)) (1 <<< (code.toNat % 8 - 3)) := by
  have hmask : (code.setWidth 8 &&& 7 : BitVec 8).toNat = code.toNat % 8 := by
    have hall : ∀ code : BitVec 6, (code.setWidth 8 &&& 7 : BitVec 8).toNat = code.toNat % 8 := by
      decide
    exact hall code
  obtain ⟨exponent, hsub, hexponent⟩ :=
    comes_subWords (a := (code.setWidth 8 &&& 7 : BitVec 8)) (b := 3) (by rw [hmask]; exact h)
  rw [hmask] at hexponent
  have hlt : exponent.toNat < 5 := by
    show _ < _
    rw [hexponent]
    show code.toNat % 8 - 3 < 5
    omega
  refine ⟨1#64 <<< exponent.toNat, ?_, ?_⟩
  · rw [ratioInWords, hsub]
    simp [powerWord, show exponent.toNat < 64 by omega]
  · rw [← show exponent.toNat = code.toNat % 8 - 3 from hexponent]
    have hall : ∀ n < 5, (1#64 <<< n).toNat = 1 <<< n := by decide
    exact hall _ hlt

theorem carryInWords_eq {nint nfrac : BitVec 64} (h : nint.toNat < 7600000000) :
    ∃ nint' nfrac', carryInWords nint nfrac = some (nint', nfrac') ∧
      nint'.toNat = (if nfrac.toNat = nfracSteps then nint.toNat + 1 else nint.toNat) ∧
      nfrac'.toNat = if nfrac.toNat = nfracSteps then 0 else nfrac.toNat := by
  have hone : (1#64 <<< nfracBits).toNat = nfracSteps := by decide
  have hfull : nfrac = 1#64 <<< nfracBits ↔ nfrac.toNat = nfracSteps := by
    rw [← BitVec.toNat_inj, hone]
  unfold carryInWords
  by_cases hcarry : nfrac.toNat = nfracSteps
  · obtain ⟨next, hinc, hnext⟩ := comes_addWords (a := nint) (b := 1) (by
      show nint.toNat + 1 < 2 ^ 64
      omega)
    rw [if_pos (hfull.2 hcarry), if_pos hcarry, if_pos hcarry, hinc]
    exact ⟨next, 0, rfl, hnext, rfl⟩
  · rw [if_neg (mt hfull.1 hcarry), if_neg hcarry, if_neg hcarry]
    exact ⟨nint, nfrac, rfl, rfl, rfl⟩

theorem toNat_referenceWord : referenceWord.toNat = referenceHz := by
  decide

/-- No step of the multiplier leaves its word while the VCO keeps to its range. -/
theorem multiplierInWords_eq {vco : BitVec 64} (h : vco.toNat ≤ 7600000000) :
    let whole := vco.toNat / referenceHz
    let fraction := roundDiv ((vco.toNat - whole * referenceHz) * nfracSteps) referenceHz
    ∃ nint nfrac, multiplierInWords vco = some (nint, nfrac) ∧
      nint.toNat = (if fraction = nfracSteps then whole + 1 else whole) ∧
      nfrac.toNat = if fraction = nfracSteps then 0 else fraction := by
  intro whole fraction
  have hwhole : (vco / referenceWord).toNat = whole := by
    rw [BitVec.toNat_udiv, toNat_referenceWord]
  have hle : whole * referenceHz ≤ vco.toNat := Nat.div_mul_le_self _ _
  -- the remainder is below the reference clock, so that no step leaves the 64 bits
  have hrest : vco.toNat - whole * referenceHz < 38400000 := by
    show vco.toNat - vco.toNat / 38400000 * 38400000 < 38400000
    omega
  obtain ⟨product, hmul, hproduct⟩ :=
    comes_mulWords (a := vco / referenceWord) (b := referenceWord)
      (by rw [hwhole, toNat_referenceWord]; omega)
  rw [hwhole, toNat_referenceWord] at hproduct
  obtain ⟨rest, hsub, hdifference⟩ :=
    comes_subWords (a := vco) (b := product) (by rw [hproduct]; exact hle)
  rw [hproduct] at hdifference
  have hshift : (rest <<< nfracBits).toNat = rest.toNat * nfracSteps := by
    rw [BitVec.toNat_shiftLeft, Nat.shiftLeft_eq, nfracSteps_eq, nfracBits]
    omega
  have hhalf : (referenceWord / 2).toNat = referenceHz / 2 := by decide
  obtain ⟨sum, hadd, hsum⟩ :=
    comes_addWords (a := rest <<< nfracBits) (b := referenceWord / 2) (by
      rw [hshift, hhalf, hdifference, nfracSteps_eq, referenceHz]
      omega)
  rw [hshift, hhalf, hdifference] at hsum
  have hfraction : (sum / referenceWord).toNat = fraction := by
    rw [BitVec.toNat_udiv, toNat_referenceWord, hsum]
    rfl
  have hcalculated : multiplierInWords vco = carryInWords (vco / referenceWord)
      (sum / referenceWord) := by
    rw [multiplierInWords, hmul, Option.bind_eq_bind, Option.bind_some, hsub, Option.bind_some,
      hadd, Option.bind_some]
  rw [hcalculated, ← hwhole, ← hfraction]
  refine carryInWords_eq ?_
  rw [hwhole]
  show vco.toNat / 38400000 < _
  omega

/-- The calculation in words comes to the exact settings. -/
theorem inWords_eq (request : BitVec 32) :
    (inWords request).map DividerWords.settings = some (ofHz request.toNat) := by
  obtain ⟨band, hfind, hexponent, hratio⟩ := Band.find?_tunable
    (lowestHz_le_clampHz request.toNat) (clampHz_le_highestHz request.toNat)
  have hvco := vco_bounds (lowestHz_le_clampHz request.toNat) (clampHz_le_highestHz request.toNat)
  obtain ⟨x, hx, hxval⟩ := comes_ratioInWords hexponent
  rw [hratio] at hxval
  have hclamp := toNat_clampWord request
  have hwide : ((clampWord request).setWidth 64).toNat = clampHz request.toNat := by
    rw [BitVec.toNat_setWidth, hclamp]
    have := clampHz_le_highestHz request.toNat
    simp only [highestHz] at this
    omega
  obtain ⟨vco, hmul, hvcoval⟩ := comes_mulWords (a := x) (b := (clampWord request).setWidth 64) (by
    rw [hxval, hwide]
    omega)
  rw [hxval, hwide] at hvcoval
  have hle : vco.toNat ≤ 7600000000 := by
    rw [hvcoval]
    exact hvco.2
  obtain ⟨nint, nfrac, hmultiplier, hnint, hnfrac⟩ := multiplierInWords_eq hle
  rw [hvcoval] at hnint hnfrac
  have hsettings : ofHz request.toNat = {
      x := x.toNat, nint := nint.toNat, nfrac := nfrac.toNat, freqSel := band.code
      reference := referenceHz } := by
    unfold ofHz
    simp only [hfind, Option.getD_some, hratio]
    rw [hnint, hnfrac, hxval]
    split <;> rfl
  have hcalculated : inWords request = some {
      x := x.setWidth 8, nint := nint.setWidth 16, nfrac := nfrac.setWidth 32
      freqSel := band.code.setWidth 8, reference := BitVec.ofNat 32 referenceHz } := by
    rw [inWords, hclamp, hfind, Option.getD_some, hx, Option.bind_eq_bind, Option.bind_some, hmul,
      Option.bind_some, hmultiplier, Option.bind_eq_bind, Option.bind_some]
    rfl
  -- what is cut off is nothing, since the settings fit the words that they are stored in
  have hrepresents := ofHz_represents request.toNat
  have hfit : x.toNat < 256 ∧ nint.toNat < 65536 ∧ nfrac.toNat < 4294967296 := by
    have hwhole : (ofHz request.toNat).nint < 512 := hrepresents.nint
    have hfraction : (ofHz request.toNat).nfrac < 8388608 := hrepresents.nfrac
    have hratios := vcoRatio_cases (clampHz request.toNat)
    rw [hsettings] at hwhole hfraction
    dsimp only at hwhole hfraction
    omega
  have hcode : (band.code.setWidth 8).setWidth 6 = band.code := by
    have hall : ∀ code : BitVec 6, (code.setWidth 8).setWidth 6 = code := by decide
    exact hall band.code
  have hreference : (BitVec.ofNat 32 referenceHz).toNat = referenceHz := by decide
  have hcut {width n : Nat} {word : BitVec 64} (h : word.toNat < n) (hn : n = 2 ^ width) :
      (word.setWidth width).toNat = word.toNat := by
    rw [BitVec.toNat_setWidth, Nat.mod_eq_of_lt (hn ▸ h)]
  rw [hcalculated, hsettings, Option.map_some, DividerWords.settings, hcut hfit.1 rfl,
    hcut hfit.2.1 rfl, hcut hfit.2.2 rfl, hcode, hreference]

/-- The fraction for a request is rounded up to a whole step, which is carried. -/
def Carries (request : Nat) : Prop :=
  (ofHz request).nint = (ofHz request).x * clampHz request / referenceHz + 1 ∧
    (ofHz request).nfrac = 0

instance (request : Nat) : Decidable (Carries request) :=
  inferInstanceAs (Decidable (_ ∧ _))

/-- The settings have the code of the band that is found. -/
theorem freqSel_ofHz {request : Nat} {band : Band}
    (hfind : Band.find? (clampHz request) = some band) : (ofHz request).freqSel = band.code := by
  simp only [ofHz, hfind, Option.getD_some]
  split <;> rfl

/-- The whole part of the multiplier follows from the range of the VCO. -/
theorem nint_bounds (request : Nat) :
    96 ≤ (ofHz request).nint ∧ (ofHz request).nint ≤ 197 := by
  have h := ofHz_represents request
  have hvco := vco_bounds (lowestHz_le_clampHz request) (clampHz_le_highestHz request)
  have hcoefficient := h.coefficient
  have hnfrac := h.nfrac
  rw [← h.ratio] at hvco
  simp only [coefficient, multiplier, roundDiv, referenceHz, nfracSteps_eq] at hcoefficient hnfrac
  omega

/-- For every request of 32 bits the settings are exact. The band is the lowest one that contains
the tunable frequency nearest to the request, and its code divides a VCO that runs between 3.72 and
7.6 GHz. The multiplier is the VCO frequency over the reference clock, rounded to the nearest step
of the fraction with ties up. The parts of the multiplier fit their fields, also where the fraction
carries, which it does for some request. The calculation in words comes to the same settings: no
step leaves its word, and nothing is lost where the results are cut to their widths. -/
theorem ofHz_exact :
    (∀ request : BitVec 32,
      let hz := clampHz request.toNat
      let d := ofHz request.toNat
      (∃ band ∈ Band.all, Band.find? hz = some band ∧ band.contains hz ∧
        (∀ other ∈ Band.all, other.contains hz → band.low ≤ other.low) ∧
        d.freqSel = band.code) ∧
      (3 ≤ d.freqSel.toNat % 8 ∧ d.x = 1 <<< (d.freqSel.toNat % 8 - 3) ∧
        vcoDivider d.freqSel = .ok d.x) ∧
      (3720000000 ≤ d.x * hz ∧ d.x * hz ≤ 7600000000) ∧
      ((d.nint * 8388608 + d.nfrac : Nat) : ℤ) =
        round (((8388608 * (d.x * hz) : Nat) : ℚ) / (38400000 : Nat)) ∧
      d.nfrac < 8388608 ∧ (96 ≤ d.nint ∧ d.nint ≤ 197) ∧
      (inWords request).map DividerWords.settings = some d) ∧
    ∃ request : BitVec 32, Carries request.toNat := by
  refine ⟨?_, 1862399999, by decide⟩
  intro request hz d
  have hlow : lowestHz ≤ hz := lowestHz_le_clampHz request.toNat
  have hhigh : hz ≤ highestHz := clampHz_le_highestHz request.toNat
  have h : d.Represents hz := ofHz_represents request.toNat
  obtain ⟨band, hmem, hfind, hcontains, hlowest⟩ := Band.find?_lowest hlow hhigh
  have hvco := vco_bounds hlow hhigh
  rw [← h.ratio] at hvco
  refine ⟨⟨band, hmem, hfind, hcontains, hlowest, freqSel_ofHz hfind⟩, ?_, hvco, ?_, h.nfrac,
    nint_bounds request.toNat, inWords_eq request⟩
  · have hcode := h.code
    simp only [vcoDivider] at hcode
    split at hcode
    · next hexponent => exact ⟨hexponent, (Except.ok.inj hcode).symm, h.code⟩
    · cases hcode
  · -- the two fields are one fixed-point number, which is what has been rounded
    have hcoefficient : d.nint * 8388608 + d.nfrac = roundDiv (d.x * hz * nfracSteps) referenceHz :=
      h.coefficient
    rw [hcoefficient, roundDiv_eq_round _ (by decide), Nat.mul_comm _ nfracSteps]
    rfl

end Divider

end Transceiver
