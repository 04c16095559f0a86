import Transceiver.Proofs.LoopbackChange
import Transceiver.Proofs.Preconditions
import Transceiver.Proofs.SynthesizedFrequency

/-!
# Programming a synthesizer

What the registers of a half stand for is settled by five of them. Programming a frequency writes
these five, and nothing that is done afterwards to lock the VCO touches them again. So they hold the
settings for the request even if the VCO does not lock in the end.
-/

namespace Transceiver

open Procedure Register

variable {window : Option (Byte × Byte)}

namespace Loopback

/-- The loopback is read off the two registers of the path switches. -/
theorem wp_current (r : RegisterFile) {post : Except Fault Mode → RegisterFile → Prop} :
    current.wp window post r ↔ post (.ok (shown r)) r := by
  rw [current, wp_bind, wp_readByte rfl, between_ok, wp_bind, wp_readByte rfl, between_ok, wp_pure]
  rfl

/-- A loopback is engaged if the path switches show one. -/
theorem wp_isEngaged (r : RegisterFile) {post : Except Fault Bool → RegisterFile → Prop} :
    isEngaged.wp window post r ↔ post (.ok (shown r != .none)) r := by
  rw [isEngaged, wp_bind, wp_current, between_ok, wp_pure]

end Loopback

namespace Synthesizer

/-! ## What the registers of a half stand for -/

/-- The divider registers of a half. -/
def packedOf (h : Half) (r : RegisterFile) : PackedDividers where
  nintHigh := r.get (Pll.nintHigh h).address
  shared := r.get (Pll.nfracHigh h).address
  nfracMid := r.get (Pll.nfracMid h).address
  nfracLow := r.get (Pll.nfracLow h).address

/-- The settings that the registers of a half hold. -/
def dividersOf (h : Half) (r : RegisterFile) : Except Fault Divider :=
  decode h (packedOf h r) ((Pll.freqSel h).get (r.get (Pll.freqSel h).address))

/-- The frequency that a half is programmed to. -/
def frequencyOf (h : Half) (r : RegisterFile) : Except Fault Nat :=
  (dividersOf h r).bind fun d => d.hz?.mapError .arithmetic

/-- Every register that is programmed can be read back. -/
theorem stored_of_programmed {h : Half} {address : Address} (ha : address ∈ programmed h) :
    (Site.at address).isStored := by
  have hall : ∀ address ∈ programmed h, (Site.at address).isStored := by
    cases h <;> decide
  exact hall address ha

/-- The dividers are read as the registers hold them. -/
theorem wp_readDividers (h : Half) (r : RegisterFile)
    {post : Except Fault PackedDividers → RegisterFile → Prop} :
    (readDividers h).wp window post r ↔ post (.ok (packedOf h r)) r := by
  have hstored (address : Address) (ha : address ∈ programmed h) := stored_of_programmed ha
  rw [readDividers, wp_bind, wp_readByte (hstored _ (by simp [programmed])),
    between_ok, wp_bind, wp_readByte (hstored _ (by simp [programmed])),
    between_ok, wp_bind, wp_readByte (hstored _ (by simp [programmed])),
    between_ok, wp_bind, wp_readByte (hstored _ (by simp [programmed])), between_ok, wp_pure]
  rfl

/-- The settings of a half are read as the registers hold them, or as the fault that the registers
decode to. -/
theorem wp_dividers (h : Half) (r : RegisterFile)
    {post : Except Fault Divider → RegisterFile → Prop} :
    (dividers h).wp window post r ↔ post (dividersOf h r) r := by
  have hstored : (Site.at (Pll.freqSel h).address).isStored :=
    stored_of_programmed (h := h) (by simp [programmed])
  rw [dividers, wp_bind, wp_readDividers, between_ok, wp_bind, wp_load hstored]
  rfl

/-- The frequency of a half is read off its settings. -/
theorem wp_frequencyHz (h : Half) (r : RegisterFile)
    {post : Except Fault Nat → RegisterFile → Prop} :
    (frequencyHz h).wp window post r ↔ post (frequencyOf h r) r := by
  rw [frequencyHz, wp_bind, wp_dividers]
  unfold frequencyOf
  cases dividersOf h r with
  | error fault => rfl
  | ok d =>
    rw [between_ok, Except.bind]
    generalize d.hz? = found
    cases found <;> rfl

/-- The registers with the settings of a half. The output buffer of the PLL is among them. -/
def settingsRegisters (h : Half) : List Address := [
  (Pll.nintHigh h).address, (Pll.nfracHigh h).address, (Pll.nfracMid h).address,
  (Pll.nfracLow h).address, (Pll.freqSel h).address]

/-- The settings of a half depend on five registers. -/
theorem dividersOf_congr {h : Half} {r r' : RegisterFile}
    (hkept : ∀ address ∈ settingsRegisters h, r'.get address = r.get address) :
    dividersOf h r' = dividersOf h r := by
  simp only [dividersOf, packedOf]
  rw [hkept _ (by simp [settingsRegisters]), hkept _ (by simp [settingsRegisters]),
    hkept _ (by simp [settingsRegisters]), hkept _ (by simp [settingsRegisters]),
    hkept _ (by simp [settingsRegisters])]

/-- And so does its frequency. -/
theorem frequencyOf_congr {h : Half} {r r' : RegisterFile}
    (hkept : ∀ address ∈ settingsRegisters h, r'.get address = r.get address) :
    frequencyOf h r' = frequencyOf h r := by
  rw [frequencyOf, dividersOf_congr hkept, frequencyOf]

/-! ## Programming -/

/-- Settings for a frequency come back from the registers. -/
theorem decode_pack (h : Half) {d : Divider} {hz : Nat} (hd : d.Represents hz) :
    decode h (.pack h d.nint d.nfrac) d.freqSel = .ok d := by
  have hreference := hd.reference
  rcases d with ⟨x, nint, nfrac, code, reference⟩
  dsimp only at hreference
  subst hreference
  unfold decode
  rw [hd.code, PackedDividers.nint_pack h hd.nint, PackedDividers.nfrac_pack h _ hd.nfrac]
  rfl

/-- Settings for a request are the settings for what it is clamped to. -/
theorem ofHz_clampHz (request : Nat) : Divider.ofHz (clampHz request) = Divider.ofHz request := by
  unfold Divider.ofHz
  rw [clampHz_of_tunable (lowestHz_le_clampHz request) (clampHz_le_highestHz request)]

/-- What the register with the band code and the output buffer is set to. -/
def bandByte (h : Half) (hz : Nat) (code : BitVec 6) (r : RegisterFile) : Byte :=
  if Loopback.shown r = .none then
    (Pll.selOut h).set ((Pll.freqSel h).set 0 code) (outputBuffer hz)
  else
    (Pll.freqSel h).set (r.get (Pll.freqSel h).address) code

/-- The band code is written whether a loopback is engaged or not. -/
theorem freqSel_bandByte (h : Half) (hz : Nat) (code : BitVec 6) (r : RegisterFile) :
    (Pll.freqSel h).get (bandByte h hz code r) = code := by
  have hdisjoint : (Pll.freqSel h).Disjoint (Pll.selOut h) := by cases h <;> decide
  unfold bandByte
  split
  · rw [BitField.get_set_of_disjoint hdisjoint, BitField.get_set_self]
  · rw [BitField.get_set_self]

/-- Without a loopback the output buffer is chosen for the frequency. -/
theorem selOut_bandByte {h : Half} {r : RegisterFile} (hopen : Loopback.shown r = .none) (hz : Nat)
    (code : BitVec 6) : (Pll.selOut h).get (bandByte h hz code r) = outputBuffer hz := by
  rw [bandByte, if_pos hopen, BitField.get_set_self]

/-- The byte with the band code is computed from what is read: the loopback and, if one is engaged,
the old byte. -/
theorem wp_writeBand (h : Half) (hz : Nat) (code : BitVec 6) (r : RegisterFile)
    {post : Except Fault Unit → RegisterFile → Prop} :
    (writeBand h hz code).wp window post r ↔
      post (.ok ()) (r.set (Pll.freqSel h).address (bandByte h hz code r)) := by
  have hstored : (Site.at (Pll.freqSel h).address).isStored :=
    stored_of_programmed (h := h) (by simp [programmed])
  rw [writeBand, wp_bind, wp_readByte hstored, between_ok, wp_bind, Loopback.wp_isEngaged,
    between_ok]
  unfold bandByte
  cases Loopback.shown r <;> rfl

/-- What a write leaves alone that spares the settings of a half. -/
def SparesSettings (h : Half) (address : Address) (_ : Byte) : Prop :=
  address ∉ settingsRegisters h

/-- What spares the settings of a half leaves their registers as they are. -/
theorem wp_of_sparesSettings {α : Type} {h : Half} {p : Procedure α}
    (hp : p.WritesOnly (SparesSettings h)) (r : RegisterFile) :
    p.wp window (fun _ r' => ∀ address ∈ settingsRegisters h, r'.get address = r.get address) r :=
  wp_mono (wp_of_writesOnly hp r) fun _ _ hkept address hmem =>
    hkept address fun _ hspares => hspares hmem

/-- Nothing that is done to lock the VCO writes the settings. -/
theorem writesOnly_lockSteps (h : Half) :
    (do setCurrents h; tune h).WritesOnly (SparesSettings h) := by
  have hne : ∀ address ∈ [(Pll.chargePump h).address, (Pll.offsetUp h).address,
      (Pll.offsetDown h).address, (Pll.vcoCap h).address], address ∉ settingsRegisters h := by
    cases h <;> decide
  have htune : (tune h).Careful (SparesSettings h) fun _ => True :=
    careful_tune fun _ => hne _ (by simp)
  simp only [setCurrents, writesOnly_bind, writesOnly_assign, implies_true, and_true,
    htune.writesOnly]
  exact ⟨fun _ => hne _ (by simp), fun _ _ => ⟨fun _ => hne _ (by simp),
    fun _ _ _ => hne _ (by simp)⟩⟩

/-- The registers with the dividers of a half written. -/
def divided (h : Half) (packed : PackedDividers) (r : RegisterFile) : RegisterFile :=
  (((r.set (Pll.nintHigh h).address packed.nintHigh).set
    (Pll.nfracHigh h).address packed.shared).set
    (Pll.nfracMid h).address packed.nfracMid).set (Pll.nfracLow h).address packed.nfracLow

/-- The dividers are written in four bytes. -/
theorem wp_writeDividers (h : Half) (nint nfrac : Nat) (r : RegisterFile)
    {post : Except Fault Unit → RegisterFile → Prop} :
    (writeDividers h nint nfrac).wp window post r ↔
      post (.ok ()) (divided h (.pack h nint nfrac) r) :=
  Iff.rfl

/-- However programming ends, the settings have been written by then: on a chip that refuses
nothing, only locking the VCO can fail. -/
theorem wp_program (h : Half) (hz : Nat) (d : Divider) (r : RegisterFile) :
    (program h hz d).wp window (fun _ r' => packedOf h r' = .pack h d.nint d.nfrac ∧
      r'.get (Pll.freqSel h).address = bandByte h hz d.freqSel r) r := by
  have hne : (Pll.freqSel h).address ≠ (Pll.nintHigh h).address ∧
      (Pll.freqSel h).address ≠ (Pll.nfracHigh h).address ∧
      (Pll.freqSel h).address ≠ (Pll.nfracMid h).address ∧
      (Pll.freqSel h).address ≠ (Pll.nfracLow h).address := by
    cases h <;> decide
  rw [program, wp_bind, wp_writeBand, between_ok, wp_bind, wp_writeDividers, between_ok]
  refine wp_mono (wp_of_sparesSettings (writesOnly_lockSteps h) _) fun _ r' hkept => ?_
  simp only [packedOf]
  rw [hkept _ (by simp [settingsRegisters]), hkept _ (by simp [settingsRegisters]),
    hkept _ (by simp [settingsRegisters]), hkept _ (by simp [settingsRegisters]),
    hkept _ (by simp [settingsRegisters])]
  cases h <;> simp +decide [divided, RegisterFile.get_set]

/-- The registers that the VCO of a half is tuned with: settings for `hz` are written, and the
currents of the charge pump are set. -/
def prepared (h : Half) (hz : Nat) (d : Divider) (r : RegisterFile) : RegisterFile :=
  (((divided h (.pack h d.nint d.nfrac)
    (r.set (Pll.freqSel h).address (bandByte h hz d.freqSel r))).assign
    (Pll.chargePump h) chargePumpCurrent).assign
    (Pll.offsetUp h) offsetUpCurrent).assign (Pll.offsetDown h) offsetDownCurrent

/-- Programming is writing the settings and the currents, and then tuning. -/
theorem wp_program_tune (h : Half) (hz : Nat) (d : Divider) (r : RegisterFile)
    {post : Except Fault Unit → RegisterFile → Prop} :
    (program h hz d).wp window post r ↔ (tune h).wp window post (prepared h hz d r) := by
  have hstored (f : BitField 5) (hf : f.address ∈ programmed h) : (Site.at f.address).isStored :=
    stored_of_programmed hf
  rw [program, wp_bind, wp_writeBand, between_ok, wp_bind, wp_writeDividers,
    between_ok, wp_bind, setCurrents, wp_bind, wp_assign (hstored _ (by simp [programmed])),
    between_ok, wp_bind, wp_assign (hstored _ (by simp [programmed])), between_ok,
    wp_assign (hstored _ (by simp [programmed])), between_ok, prepared]

/-- The registers with the clocks of both modulators switched. -/
def clocked (on : Bool) (r : RegisterFile) : RegisterFile :=
  r.set clockEnable (Clock.rxDsm.put (Clock.txDsm.put (r.get clockEnable) on) on)

/-- Tuning a half is programming it with the clocks of the modulators on, which are switched off
again however that ends. -/
theorem wp_setFrequency (h : Half) (request : Nat) (r : RegisterFile)
    {post : Except Fault Divider → RegisterFile → Prop} :
    (setFrequency h request).wp window post r ↔
      (program h (clampHz request) (Divider.ofHz request)).wp window
        (fun result r' => post (result.map fun _ => Divider.ofHz request) (clocked false r'))
        (clocked true r) := by
  have hnote {post : Except Fault Unit → RegisterFile → Prop} :
      (noteClamped (clampHz request) request).wp window post r ↔ post (.ok ()) r := by
    unfold noteClamped
    split <;> rfl
  simp only [setFrequency, wp_bind, hnote, between_ok, wp_log, wp_attempt, clockModulators,
    wp_modify (show (Site.at clockEnable).isStored from rfl), wp_forceAll_cons, ofHz_clampHz]
  refine wp_congr fun result r' => ?_
  rw [wp_forceAll_cons, wp_modify rfl]
  rcases result with _ | _ <;> rfl

/-- Both clocks are what they are switched to. -/
theorem flags_clocked (on : Bool) (r : RegisterFile) :
    (clocked on r).flag Clock.txDsm = on ∧ (clocked on r).flag Clock.rxDsm = on := by
  have hdisjoint : Clock.txDsm.Disjoint Clock.rxDsm := by decide
  unfold RegisterFile.flag clocked
  constructor
  · rw [show Clock.txDsm.address = clockEnable from rfl, RegisterFile.get_set_self,
      BitField.put, BitField.isSet_set_of_disjoint hdisjoint, BitField.isSet_put]
  · rw [show Clock.rxDsm.address = clockEnable from rfl, RegisterFile.get_set_self,
      BitField.isSet_put]

/-- Switching the clocks of the modulators leaves the capacitor byte alone. -/
theorem get_clocked_vcoCap (h : Half) (on : Bool) (r : RegisterFile) :
    (clocked on r).get (Pll.vcoCap h).address = r.get (Pll.vcoCap h).address := by
  have hne : clockEnable ≠ (Pll.vcoCap h).address := by cases h <;> decide
  exact RegisterFile.get_set_of_ne _ hne _

/-- Switching the clocks does not change the loopback. -/
theorem shown_clocked (on : Bool) (r : RegisterFile) :
    Loopback.shown (clocked on r) = Loopback.shown r := by
  have hcontrol : clockEnable ≠ loopbackControl := by decide
  have hsource : clockEnable ≠ basebandLoop := by decide
  rw [clocked, Loopback.shown, RegisterFile.get_set_of_ne _ hcontrol,
    RegisterFile.get_set_of_ne _ hsource, Loopback.shown]

/-- Nor does it change the settings of a half. -/
theorem get_clocked_settings {h : Half} {address : Address} (ha : address ∈ settingsRegisters h)
    (on : Bool) (r : RegisterFile) : (clocked on r).get address = r.get address := by
  have hall : ∀ address ∈ settingsRegisters h, clockEnable ≠ address := by cases h <;> decide
  exact RegisterFile.get_set_of_ne _ (hall address ha) _

/-- Tuning a half leaves it with the settings for the request, also if the VCO does not lock. The
output buffer is chosen for the request unless a loopback is engaged. -/
theorem wp_setFrequency_settings (h : Half) (request : Nat) (r : RegisterFile) :
    (setFrequency h request).wp window (fun _ r' =>
      dividersOf h r' = .ok (Divider.ofHz request) ∧ (Loopback.shown r = .none →
        (Pll.selOut h).get (r'.get (Pll.selOut h).address) = outputBuffer (clampHz request)))
      r := by
  rw [wp_setFrequency]
  refine wp_mono (wp_program h _ _ _) fun _ r' hprogrammed => ?_
  obtain ⟨hpacked, hband⟩ := hprogrammed
  have hfreqSel : (Pll.freqSel h).address ∈ settingsRegisters h := by simp [settingsRegisters]
  rw [dividersOf_congr fun address ha => get_clocked_settings ha false r']
  refine ⟨?_, fun hopen => ?_⟩
  · rw [dividersOf, hpacked, hband, freqSel_bandByte,
      decode_pack h (Divider.ofHz_represents request)]
  · rw [← shown_clocked true r] at hopen
    show (Pll.selOut h).get ((clocked false r').get (Pll.freqSel h).address) = _
    rw [get_clocked_settings hfreqSel, hband, selOut_bandByte hopen]

/-- Without a loopback the band is selected by the frequency: an amplifier for transmission, an LNA
for reception. -/
theorem wp_selectBand (h : Half) (hz : Nat) {r : RegisterFile} (hopen : Loopback.shown r = .none)
    {post : Except Fault Unit → RegisterFile → Prop} :
    (selectBand h hz).wp window post r ↔ post (.ok ()) (match h with
      | .tx => r.set paControl ((if highBandHz ≤ hz then Amplifier.PowerAmp.pa2 else .pa1).select
          (r.get paControl))
      | .rx => r.assign Rx.lna (if highBandHz ≤ hz then Amplifier.Lna.lna2 else .lna1).bits) := by
  unfold selectBand
  rw [wp_bind, Loopback.wp_isEngaged, between_ok, hopen]
  cases h with
  | tx => exact wp_modify rfl _
  | rx => exact wp_assign rfl _

end Synthesizer

end Transceiver
