import Transceiver.Proofs.DividerArithmetic
import Transceiver.Proofs.LeavingLoopback

/-!
# Frequencies that come back

The frequency that is read back from a PLL lies within 1 Hz of the one that it was programmed for,
and grows with it. That 1 Hz can lead over the end of a band: the PLL is then programmed with the
settings of the next band when the frequency that was read is set again. This happens once and no
more, since both settings stand for the same frequency, however often it is read and set.
-/

namespace Transceiver

/-! ## Rounding there and back -/

/-- With coarse steps a frequency comes back within 1 Hz. -/
theorem comesBack_near {x : Nat} (hx : x = 2 ∨ x = 4) (hz : Nat) :
    comesBack x hz ≤ hz + 1 ∧ hz ≤ comesBack x hz + 1 := by
  simp only [comesBack, multiplier, roundDiv, referenceHz, nfracSteps_eq]
  rcases hx with rfl | rfl <;> omega

/-- Frequencies of different ratios come back on different sides of the edge between them. -/
theorem comesBack_vcoRatio_mono {hz hz' : Nat} (h : hz ≤ hz') :
    comesBack (vcoRatio hz) hz ≤ comesBack (vcoRatio hz') hz' := by
  rcases comesBack_range hz with ⟨hlow, hback⟩ | ⟨hlow, hhigh, hx, hge, hle⟩ | ⟨hlow, hx, hge⟩ <;>
    rcases comesBack_range hz' with
      ⟨hlow', hback'⟩ | ⟨hlow', hhigh', hx', hge', hle'⟩ | ⟨hlow', hx', hge'⟩
  case inr.inl.inr.inl => rw [hx, hx']; exact comesBack_mono 4 h
  case inr.inr.inr.inr => rw [hx, hx']; exact comesBack_mono 2 h
  all_goals omega

/-! ## Neighbouring bands -/

namespace Band

/-- Two bands share an end. -/
def Neighbours (a b : Band) : Prop :=
  a.Adjacent b ∨ b.Adjacent a

instance (a b : Band) : Decidable (a.Neighbours b) :=
  inferInstanceAs (Decidable (_ ∨ _))

/-- Frequencies 1 Hz apart lie in the same band or in neighbouring ones. -/
theorem eq_or_neighbours {band other : Band} (hmem : band ∈ all) (hother : other ∈ all)
    {hz near : Nat} (hcontains : band.contains hz) (hnear : other.contains near)
    (hle : near ≤ hz + 1) (hge : hz ≤ near + 1) : other = band ∨ band.Neighbours other := by
  have hapart : ∀ a ∈ all, ∀ b ∈ all, b = a ∨ a.Neighbours b ∨
      a.high + 1 < b.low ∨ b.high + 1 < a.low := by
    decide
  simp only [contains, Bool.and_eq_true, decide_eq_true_eq] at hcontains hnear
  rcases hapart band hmem other hother with heq | hneighbours | hfar | hfar
  · exact .inl heq
  · exact .inr hneighbours
  · omega
  · omega

end Band

namespace Divider

/-! ## Reading and programming -/

/-- The band code decides what the VCO is divided by. -/
theorem Represents.x_eq {d d' : Divider} {hz hz' : Nat} (h : d.Represents hz)
    (h' : d'.Represents hz') (hcode : d'.freqSel = d.freqSel) : d'.x = d.x := by
  have hratio := h'.code
  rw [hcode, h.code] at hratio
  exact (Except.ok.inj hratio).symm

/-- The band code and the coefficient make up the settings. -/
theorem Represents.eq_of_coefficient {d d' : Divider} {hz hz' : Nat} (h : d.Represents hz)
    (h' : d'.Represents hz') (hcode : d'.freqSel = d.freqSel)
    (hcoefficient : d'.coefficient = d.coefficient) : d' = d := by
  have hx : d'.x = d.x := h.x_eq h' hcode
  have hreference : d'.reference = d.reference := h'.reference.trans h.reference.symm
  -- the fraction is less than a whole step, so the coefficient has one whole part only
  have hparts : d'.nint = d.nint ∧ d'.nfrac = d.nfrac := by
    have hnfrac := h.nfrac
    have hnfrac' := h'.nfrac
    simp only [Divider.coefficient, nfracSteps_eq] at hcoefficient hnfrac hnfrac'
    omega
  rcases d with ⟨x, nint, nfrac, freqSel, reference⟩
  rcases d' with ⟨x', nint', nfrac', freqSel', reference'⟩
  simp only [mk.injEq]
  exact ⟨hx, hparts.1, hparts.2, hcode, hreference⟩

theorem clampHz_synthesizedHz (request : Nat) :
    clampHz (synthesizedHz request) = synthesizedHz request :=
  clampHz_of_tunable (synthesizedHz_tunable request).1 (synthesizedHz_tunable request).2

/-- Where the VCO is divided by eight or more, the tunable frequency is synthesized exactly. -/
theorem synthesizedHz_of_fine {request : Nat} (h : clampHz request ≤ 930000000) :
    synthesizedHz request = clampHz request :=
  comesBack_of_fine (vcoRatio_of_low h) _

theorem synthesizedHz_near (request : Nat) :
    synthesizedHz request ≤ clampHz request + 1 ∧ clampHz request ≤ synthesizedHz request + 1 := by
  rcases vcoRatio_cases (clampHz request) with hfine | hcoarse
  · have hback : synthesizedHz request = clampHz request := comesBack_of_fine hfine _
    omega
  · exact comesBack_near hcoarse _

theorem synthesizedHz_mono {request request' : Nat} (h : request ≤ request') :
    synthesizedHz request ≤ synthesizedHz request' := by
  have hclamp : clampHz request ≤ clampHz request' := by
    simp only [clampHz]
    omega
  exact comesBack_vcoRatio_mono hclamp

/-- Within a band the frequency that is read back has the settings it was read from. -/
theorem ofHz_synthesizedHz_of_freqSel {request : Nat}
    (hcode : (ofHz (synthesizedHz request)).freqSel = (ofHz request).freqSel) :
    ofHz (synthesizedHz request) = ofHz request := by
  have h := ofHz_represents request
  have h' := ofHz_represents (synthesizedHz request)
  rw [clampHz_synthesizedHz] at h'
  have hx := h.x_eq h' hcode
  have hback : synthesizedHz request = comesBack (ofHz request).x (clampHz request) := by
    rw [h.ratio, synthesizedHz]
  refine h.eq_of_coefficient h' hcode ?_
  rw [h'.coefficient, h.coefficient, hx]
  rcases vcoRatio_cases (clampHz request) with hfine | hcoarse
  · rw [hback, comesBack_of_fine (h.ratio ▸ hfine)]
  · rw [hback, multiplier_comesBack (h.ratio ▸ hcoarse)]

/-- The settings for a frequency that is read back are those it was read from, or those of the
neighbouring band. -/
theorem ofHz_synthesizedHz (request : Nat) :
    ofHz (synthesizedHz request) = ofHz request ∨
      ∃ band ∈ Band.all, ∃ other ∈ Band.all, band.Neighbours other ∧
        (ofHz request).freqSel = band.code ∧
        (ofHz (synthesizedHz request)).freqSel = other.code := by
  obtain ⟨band, hmem, hfind, hcontains, -⟩ :=
    Band.find?_lowest (lowestHz_le_clampHz request) (clampHz_le_highestHz request)
  obtain ⟨other, hother, hfind', hnear, -⟩ :=
    Band.find?_lowest (synthesizedHz_tunable request).1 (synthesizedHz_tunable request).2
  have hcode : (ofHz request).freqSel = band.code := freqSel_ofHz hfind
  have hcode' : (ofHz (synthesizedHz request)).freqSel = other.code :=
    freqSel_ofHz (by rw [clampHz_synthesizedHz]; exact hfind')
  obtain ⟨hle, hge⟩ := synthesizedHz_near request
  rcases Band.eq_or_neighbours hmem hother hcontains hnear hle hge with rfl | hneighbours
  · exact .inl (ofHz_synthesizedHz_of_freqSel (hcode'.trans hcode.symm))
  · exact .inr ⟨band, hmem, other, hother, hneighbours, hcode, hcode'⟩

end Divider

/-! ## Programming what is read, again and again -/

namespace Synthesizer

open Procedure Divider Loopback

/-- A half of a chip after what its PLL is programmed to has been read and set, a number of times.
Whether the VCO locks each time does not matter. -/
def retuned (h : Half) (rounds : Nat) (c : Chip) : Chip :=
  (fun c => ((restoreBand h).run Chip.transport c).state)^[rounds] c

theorem retuned_succ (h : Half) (rounds : Nat) (c : Chip) :
    retuned h (rounds + 1) c = ((restoreBand h).run Chip.transport (retuned h rounds c)).state :=
  Function.iterate_succ_apply' _ _ _

theorem shows_dividers (c : Chip) (h : Half) : c.shows (dividers h) = dividersOf h c.registers :=
  shows_of_wp ((wp_dividers h _).2 rfl)

/-- Setting a half again to the frequency it is programmed to programs the settings for that
frequency. -/
theorem wp_restoreBand_settings {window : Option (Byte × Byte)} {h : Half} {request : Nat}
    {r : RegisterFile} (hr : dividersOf h r = .ok (ofHz request)) :
    (restoreBand h).wp window
      (fun _ r' => dividersOf h r' = .ok (ofHz (synthesizedHz request))) r := by
  rw [restoreBand, wp_bind, wp_frequencyHz, frequencyOf_ofHz hr, between_ok, wp_bind]
  refine wp_mono (wp_setFrequency_settings h (synthesizedHz request) r) fun result r' hset => ?_
  obtain ⟨hsettings, -⟩ := hset
  cases result with
  | error fault => exact hsettings
  | ok d =>
    have hne : amplifierRegister h ∉ settingsRegisters h := by cases h <;> decide
    have hspares : (selectBand h (synthesizedHz request)).WritesOnly (SparesSettings h) :=
      writesOnly_selectBand fun _ => hne
    refine wp_mono (wp_of_sparesSettings hspares r') fun _ r'' hkept => ?_
    rw [dividersOf_congr hkept, hsettings]

/-- A round programs the settings for the frequency that the half shows, and the rounds after it
find these settings as they leave them. -/
theorem retuned_settings {h : Half} {request : Nat} {c : Chip} (hc : c.Obeys none)
    (hr : dividersOf h c.registers = .ok (ofHz request)) (rounds : Nat) :
    (retuned h rounds c).Obeys none ∧
      dividersOf h (retuned h rounds c).registers =
        .ok (ofHz (if rounds = 0 then request else synthesizedHz request)) := by
  induction rounds with
  | zero => exact ⟨hc, hr⟩
  | succ rounds ih =>
    obtain ⟨hobeys, hsettings⟩ := ih
    obtain ⟨hobeys', hsettings'⟩ := wp_run hobeys (wp_restoreBand_settings hsettings)
    rw [retuned_succ, hsettings', if_neg (Nat.succ_ne_zero rounds)]
    refine ⟨hobeys', ?_⟩
    split
    · rfl
    · rw [synthesizedHz_synthesizedHz]

/-- The settings for a request of 32 bits stand for a frequency within 1 Hz of the tunable frequency
nearest to it, for exactly that one up to 930 MHz, and for no higher one than the settings for a
higher request do. The frequency is the same when it is set again. Its settings are those of the
request, or else those of the neighbouring band. A half of a chip that has been tuned to the
request, whether its VCO has locked or not, shows the frequency after any number of rounds of
reading and setting it, and from the first round on the same settings. -/
theorem retuning_keeps_frequency (request : BitVec 32) (h : Half) (c : Chip)
    (hread : c.failRead = none) (hwrite : c.failWrite = none) :
    let hz := clampHz request.toNat
    let tuned := ((setFrequency h request.toNat).run Chip.transport c).state
    ∃ back, (ofHz request.toNat).hz? = .ok back ∧ (hz ≤ 930000000 → back = hz) ∧
      (back ≤ hz + 1 ∧ hz ≤ back + 1) ∧
      (∀ higher : BitVec 32, request ≤ higher →
        ∃ back', (ofHz higher.toNat).hz? = .ok back' ∧ back ≤ back') ∧
      (ofHz back).hz? = .ok back ∧
      (ofHz back = ofHz request.toNat ∨
        ∃ band ∈ Band.all, ∃ other ∈ Band.all, band.Neighbours other ∧
          (ofHz request.toNat).freqSel = band.code ∧ (ofHz back).freqSel = other.code) ∧
      ∀ rounds, (retuned h rounds tuned).shows (frequencyHz h) = .ok back ∧
        (retuned h (rounds + 1) tuned).shows (dividers h) = .ok (ofHz back) := by
  intro hz tuned
  have hc : c.Obeys none := ⟨hread, hwrite, fun _ hw => nomatch hw⟩
  obtain ⟨hobeys, htuned, -⟩ := wp_run hc (wp_setFrequency_settings h request.toNat c.registers)
  -- what comes back comes back as itself, so every further round is like the first one
  have hsame := synthesizedHz_synthesizedHz request.toNat
  refine ⟨synthesizedHz request.toNat, hz?_ofHz _, synthesizedHz_of_fine, synthesizedHz_near _,
    fun higher hle => ⟨_, hz?_ofHz _, synthesizedHz_mono (BitVec.le_def.1 hle)⟩, ?_,
    ofHz_synthesizedHz _, fun rounds => ⟨?_, ?_⟩⟩
  · rw [hz?_ofHz, hsame]
  · obtain ⟨-, hsettings⟩ := retuned_settings hobeys htuned rounds
    rw [shows_frequencyHz, frequencyOf_ofHz hsettings]
    split
    · rfl
    · rw [hsame]
  · obtain ⟨-, hsettings⟩ := retuned_settings hobeys htuned (rounds + 1)
    rw [shows_dividers, hsettings, if_neg (Nat.succ_ne_zero rounds)]

/-- The edge at 2695 MHz is read back as a frequency of the next band, whose settings stay. -/
theorem retuning_keeps_next_band :
    let tuned := ((setFrequency .rx 2695000000).run Chip.transport Chip.initial).state
    (ofHz 2695000001).freqSel ≠ (ofHz 2695000000).freqSel ∧
      ∀ rounds, (retuned .rx rounds tuned).shows (frequencyHz .rx) = .ok 2695000001 ∧
        (retuned .rx (rounds + 1) tuned).shows (dividers .rx) = .ok (ofHz 2695000001) := by
  obtain ⟨back, hback, -, -, -, -, -, hrounds⟩ :=
    retuning_keeps_frequency 2695000000#32 .rx Chip.initial rfl rfl
  have hhz : (ofHz 2695000000).hz? = .ok 2695000001 := by decide
  obtain rfl : back = 2695000001 := Except.ok.inj (hback.symm.trans hhz)
  exact ⟨by decide, hrounds⟩

end Synthesizer

end Transceiver
