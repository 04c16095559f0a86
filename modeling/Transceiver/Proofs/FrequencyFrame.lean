import Transceiver.Proofs.CommandReach
import Transceiver.Proofs.TuningReadings

/-!
# What tuning to a frequency changes

Tuning a half writes ten registers, but not all of their bits are its own. The currents of the
charge pump and the trim code share their registers with bits that are kept, and so do the clocks of
the modulators. The trim code is set over and over in the byte that has been read in the beginning,
so what is around it in the end is what was there at the start.
-/

namespace Transceiver

open Procedure Register

variable {window : Option (Byte × Byte)}

/-- A field set in the byte that a register held at the start leaves the rest as it was then. -/
theorem RegisterFile.AgreeOutside.set_first {reach : List Bits} {r₀ r : RegisterFile} {w : Nat}
    {field : BitField w} (hr : r₀.AgreeOutside reach r) (hmem : field.bits ∈ reach)
    (value : BitVec w) :
    r₀.AgreeOutside reach (r.set field.address (field.set (r₀.get field.address) value)) := by
  intro address i hi
  rw [get_set]
  split
  · next ha =>
    subst ha
    have hout : ¬ (field.offset ≤ i ∧ i < field.offset + w) := fun hin => hi _ hmem ⟨rfl, hin⟩
    rw [BitField.getLsbD_set, if_neg hout]
  · exact hr address i hi

/-- Less that may change leaves more alike. -/
theorem RegisterFile.AgreeOutside.mono {reach reach' : List Bits} {r r' : RegisterFile}
    (hr : r.AgreeOutside reach r') (hsub : reach ⊆ reach') : r.AgreeOutside reach' r' :=
  fun address i hi => hr address i fun bits hmem => hi bits (hsub hmem)

/-! ## The trim code -/

/-- What holds of every probe holds of tuning. -/
theorem Compositional.tuneFrom {M : ∀ {α : Type}, Procedure α → Prop} (hM : Compositional M)
    {h : Half} {cap : Byte} (hprobe : ∀ code, M (Synthesizer.probe h cap code)) :
    M (Synthesizer.tuneFrom h cap) := by
  refine hM.bind (hM.search hprobe _ _ _) fun found => ?_
  cases found with
  | none => exact hM.bind (hM.log _ nofun) fun _ => hM.done _
  | some code =>
    refine hM.bind (hM.walkDown hprobe code) fun lower => hM.bind (hM.log _ nofun) fun _ => ?_
    refine hM.bind (hM.upperEnd hprobe code) fun upper => hM.bind (hM.log _ nofun) fun _ => ?_
    refine hM.bind (hM.log _ nofun) fun _ => hM.bind (hprobe _) fun voltage => ?_
    cases voltage with
    | normal => exact hM.done _
    | low | high => exact hM.bind (hM.log _ nofun) fun _ => hM.done _

namespace Synthesizer

section Tuning

variable {h : Half} {reach : List Bits} (hmem : (Pll.vcoCap h).bits ∈ reach)

include hmem

theorem keeps_probe (r₀ : RegisterFile) (code : Nat) :
    (probe h (r₀.get (Pll.vcoCap h).address) code).Keeps window (r₀.AgreeOutside reach) := by
  have hwrite : (writeByte (Pll.vcoCap h).address ((Pll.vcoCap h).set
      (r₀.get (Pll.vcoCap h).address) (BitVec.ofNat 6 code))).Keeps window
      (r₀.AgreeOutside reach) :=
    fun r hr => hr.set_first hmem _
  refine hwrite.bind fun _ => (keepsTo_of_reads (by simp) r₀).bind fun shown => ?_
  cases TuningVoltage.ofCode shown.toNat with
  | ok voltage => exact keeps_pure voltage
  | error fault => exact fun _ hr => hr

/-- Tuning changes the trim code only, whatever the comparators show. -/
theorem keepsTo_tune : (tune h).KeepsTo window reach := by
  intro r₀ r hr
  rw [tune_eq, wp_bind, wp_readByte (stored_of_programmed (h := h) (by simp [programmed])),
    between_ok]
  have hkeeps := (compositional_keeps window (r.AgreeOutside reach)).tuneFrom (keeps_probe hmem r)
  exact wp_mono (hkeeps r (.refl r)) fun _ r' hr' => hr.trans hr'

end Tuning

/-! ## All of it -/

/-- The bits that tuning a half can change: the clocks of the modulators, the registers with the
settings of the half, the currents of its charge pump, and its trim code. -/
def tunedBits (h : Half) : List Bits :=
  (settingsRegisters h).map Bits.register ++ [
    (Pll.chargePump h).bits, (Pll.offsetUp h).bits, (Pll.offsetDown h).bits, (Pll.vcoCap h).bits,
    Clock.txDsm.bits, Clock.rxDsm.bits]

theorem agreeOutside_prepared (h : Half) (hz : Nat) (d : Divider) (r : RegisterFile) :
    r.AgreeOutside (tunedBits h) (prepared h hz d r) := by
  have hsettings : r.AgreeOutside (tunedBits h) (divided h (.pack h d.nint d.nfrac)
      (r.set (Pll.freqSel h).address (bandByte h hz d.freqSel r))) := by
    refine RegisterFile.agreeOutside_of_get fun address hout => ?_
    have hne (other : Address) (hother : other ∈ settingsRegisters h) : other ≠ address := by
      rintro rfl
      exact hout (List.mem_append_left _ (List.mem_map_of_mem hother))
    unfold divided
    rw [RegisterFile.get_set_of_ne _ (hne _ (by simp [settingsRegisters])),
      RegisterFile.get_set_of_ne _ (hne _ (by simp [settingsRegisters])),
      RegisterFile.get_set_of_ne _ (hne _ (by simp [settingsRegisters])),
      RegisterFile.get_set_of_ne _ (hne _ (by simp [settingsRegisters])),
      RegisterFile.get_set_of_ne _ (hne _ (by simp [settingsRegisters]))]
  exact ((hsettings.trans (RegisterFile.agreeOutside_set (by simp [tunedBits]) _ _)).trans
    (RegisterFile.agreeOutside_set (by simp [tunedBits]) _ _)).trans
    (RegisterFile.agreeOutside_set (by simp [tunedBits]) _ _)

/-- What tuning to a frequency has set besides the dividers: the output buffer, unless a loopback
was engaged at the start, and the currents of the charge pump. -/
structure AnalogSet (h : Half) (request : Nat) (start r : RegisterFile) : Prop where
  selOut : r.field (Pll.selOut h) = if Loopback.shown start = .none
    then outputBuffer (clampHz request) else start.field (Pll.selOut h)
  chargePump : r.field (Pll.chargePump h) = chargePumpCurrent
  offsetUp : r.field (Pll.offsetUp h) = offsetUpCurrent
  offsetDown : r.field (Pll.offsetDown h) = offsetDownCurrent

theorem selOut_bandByte_eq (h : Half) (hz : Nat) (code : BitVec 6) (r : RegisterFile) :
    (Pll.selOut h).get (bandByte h hz code r) =
      if Loopback.shown r = .none then outputBuffer hz else r.field (Pll.selOut h) := by
  have hdisjoint : (Pll.selOut h).Disjoint (Pll.freqSel h) := by cases h <;> decide
  split
  · next hopen => exact selOut_bandByte hopen hz code
  · next hopen =>
    rw [bandByte, if_neg hopen, BitField.get_set_of_disjoint hdisjoint]
    rfl

theorem analogSet_prepared (h : Half) (request : Nat) (d : Divider) (r : RegisterFile) :
    AnalogSet h request r (prepared h (clampHz request) d r) := by
  have hbuffer : ∀ g ∈ [Pll.chargePump h, Pll.offsetUp h, Pll.offsetDown h],
      (Pll.selOut h).Apart g := by
    cases h <;> decide
  have hdividers : ∀ address ∈ [(Pll.nintHigh h).address, (Pll.nfracHigh h).address,
      (Pll.nfracMid h).address, (Pll.nfracLow h).address], address ≠ (Pll.selOut h).address := by
    cases h <;> decide
  have hpumpUp : (Pll.chargePump h).Apart (Pll.offsetUp h) := by cases h <;> decide
  have hpumpDown : (Pll.chargePump h).Apart (Pll.offsetDown h) := by cases h <;> decide
  have hupDown : (Pll.offsetUp h).Apart (Pll.offsetDown h) := by cases h <;> decide
  unfold prepared
  constructor
  · rw [RegisterFile.field_assign_of_apart (hbuffer _ (by simp)),
      RegisterFile.field_assign_of_apart (hbuffer _ (by simp)),
      RegisterFile.field_assign_of_apart (hbuffer _ (by simp)), ← selOut_bandByte_eq h _ d.freqSel]
    unfold RegisterFile.field divided
    rw [RegisterFile.get_set_of_ne _ (hdividers _ (by simp)),
      RegisterFile.get_set_of_ne _ (hdividers _ (by simp)),
      RegisterFile.get_set_of_ne _ (hdividers _ (by simp)),
      RegisterFile.get_set_of_ne _ (hdividers _ (by simp))]
    exact congrArg _ (RegisterFile.get_set_self _ _ _)
  · rw [RegisterFile.field_assign_of_apart hpumpDown, RegisterFile.field_assign_of_apart hpumpUp,
      RegisterFile.field_assign_self]
  · rw [RegisterFile.field_assign_of_apart hupDown, RegisterFile.field_assign_self]
  · rw [RegisterFile.field_assign_self]

/-- The bits that change while a half is tuned, but for its settings and currents. -/
def lockingBits (h : Half) : List Bits :=
  [(Pll.vcoCap h).bits, Clock.txDsm.bits, Clock.rxDsm.bits]

theorem AnalogSet.of_agreeOutside {h : Half} {request : Nat} {start r r' : RegisterFile}
    (hanalog : AnalogSet h request start r) (hr : r.AgreeOutside (lockingBits h) r') :
    AnalogSet h request start r' := by
  have hagree : RegisterFile.AgreeOn [(Pll.selOut h).bits, (Pll.chargePump h).bits,
      (Pll.offsetUp h).bits, (Pll.offsetDown h).bits] r r' :=
    hr.agreeOn (by cases h <;> decide)
  constructor
  · rw [hagree.field_eq (by simp), hanalog.selOut]
  · rw [hagree.field_eq (by simp), hanalog.chargePump]
  · rw [hagree.field_eq (by simp), hanalog.offsetUp]
  · rw [hagree.field_eq (by simp), hanalog.offsetDown]

/-- Switching the clocks of the modulators on first makes no difference. -/
theorem AnalogSet.of_clocked {h : Half} {request : Nat} {on : Bool} {start r : RegisterFile}
    (hanalog : AnalogSet h request (clocked on start) r) : AnalogSet h request start r := by
  have hmem : (Pll.selOut h).address ∈ settingsRegisters h := by cases h <;> decide
  have hfield : (clocked on start).field (Pll.selOut h) = start.field (Pll.selOut h) :=
    congrArg (Pll.selOut h).get (get_clocked_settings hmem on start)
  obtain ⟨hselOut, hchargePump, hoffsetUp, hoffsetDown⟩ := hanalog
  rw [shown_clocked, hfield] at hselOut
  exact ⟨hselOut, hchargePump, hoffsetUp, hoffsetDown⟩

/-- However tuning ends, the bits around those it is to change are kept. -/
theorem wp_setFrequency_frame (h : Half) (request : Nat) (r : RegisterFile) :
    (setFrequency h request).wp window (fun result r' =>
      (∀ d, result = .ok d → d = Divider.ofHz request) ∧ AnalogSet h request r r' ∧
      r.AgreeOutside (tunedBits h) r') r := by
  have hon : r.AgreeOutside (tunedBits h) (clocked true r) :=
    agreeOutside_clocked (by simp [tunedBits]) (by simp [tunedBits]) true r
  generalize hd : Divider.ofHz request = d
  have hprepared := agreeOutside_prepared h (clampHz request) d (clocked true r)
  have hanalog := analogSet_prepared h request d (clocked true r)
  have htune : (tune h).KeepsTo window (lockingBits h) := keepsTo_tune (by simp [lockingBits])
  have hsub : lockingBits h ⊆ tunedBits h := by simp [lockingBits, tunedBits]
  rw [wp_setFrequency, wp_program_tune, hd]
  -- tuning and switching the clocks off again come after all that is set
  refine wp_mono (htune _ _ (.refl _)) fun result r' hlocked => ?_
  have hlocking := hlocked.trans
    (agreeOutside_clocked (by simp [lockingBits]) (by simp [lockingBits]) false r')
  refine ⟨fun d' hd' => ?_, (hanalog.of_agreeOutside hlocking).of_clocked,
    (hon.trans hprepared).trans (hlocking.mono hsub)⟩
  cases result with
  | error fault => cases hd'
  | ok u => exact (Except.ok.inj hd').symm

/-- On a chip that refuses no access, tuning that ends well programs what it returns and nothing
else. What it returns are the settings for the request, and they are read back afterwards. The
output buffer is left alone while a loopback is engaged, and otherwise chosen for the tunable
frequency nearest to the request. The currents of the charge pump are set and the modulators are
without a clock. No other bit of any register is changed. -/
theorem setFrequency_programs (h : Half) (request : Nat) (c : Chip) (hread : c.failRead = none)
    (hwrite : c.failWrite = none) (d : Divider)
    (hok : ((setFrequency h request).run Chip.transport c).result = .ok d) :
    let after := ((setFrequency h request).run Chip.transport c).state
    d = Divider.ofHz request ∧ ((dividers h).run Chip.transport after).result = .ok d ∧
    (∃ engaged, (Loopback.isEngaged.run Chip.transport c).result = .ok engaged ∧
      after.registers.field (Pll.selOut h) =
        if engaged then c.registers.field (Pll.selOut h)
        else if clampHz request < highBandHz then 1 else 2) ∧
    after.registers.field (Pll.chargePump h) = chargePumpCurrent ∧
    after.registers.field (Pll.offsetUp h) = offsetUpCurrent ∧
    after.registers.field (Pll.offsetDown h) = offsetDownCurrent ∧
    after.registers.flag Clock.txDsm = false ∧ after.registers.flag Clock.rxDsm = false ∧
    c.registers.AgreeOutside (tunedBits h) after.registers ∧
    ∀ address, (∀ bits ∈ tunedBits h, bits.address ≠ address) →
      after.registers.get address = c.registers.get address := by
  intro after
  have hc : c.Obeys none := ⟨hread, hwrite, fun _ hw => by cases hw⟩
  obtain ⟨hafter, hreturned, hanalog, hframe⟩ := wp_run hc (wp_setFrequency_frame h request _)
  obtain ⟨-, hsettings, -⟩ := wp_run hc (wp_setFrequency_settings h request _)
  obtain ⟨-, hclocks⟩ := wp_run hc (wp_setFrequency_unclocked h request _)
  have hshown : (dividers h).wp none (fun result _ => result = .ok (Divider.ofHz request))
      after.registers := (wp_dividers h _).2 hsettings
  have hdividers := (wp_run hafter hshown).2
  have hengaged : Loopback.isEngaged.wp none (fun result _ =>
      result = .ok (Loopback.shown c.registers != .none)) c.registers :=
    (Loopback.wp_isEngaged _).2 rfl
  have hd := hreturned d hok
  refine ⟨hd, hd ▸ hdividers, ⟨_, (wp_run hc hengaged).2, ?_⟩, hanalog.chargePump, hanalog.offsetUp,
    hanalog.offsetDown, hclocks.1, hclocks.2, hframe, fun address hout => ?_⟩
  · rw [hanalog.selOut]
    cases Loopback.shown c.registers <;> rfl
  · apply BitVec.eq_of_getLsbD_eq
    intro i _
    exact hframe address i fun bits hmem hcovers => hout bits hmem hcovers.1

/-- While a loopback is engaged the output buffer keeps its value, and the other half keeps its
trim code. -/
theorem setFrequency_programs_engaged :
    let c : Chip := { Chip.initial with
      registers := (RegisterFile.filled 0xff).set loopbackControl 0x01 }
    let after := ((setFrequency .tx 2400000000).run Chip.transport c).state
    (Loopback.isEngaged.run Chip.transport c).result = .ok true ∧
    ((dividers .tx).run Chip.transport after).result = .ok (Divider.ofHz 2400000000) ∧
    after.registers.field (Pll.selOut .tx) = 3 ∧
    after.registers.field (Pll.chargePump .tx) = chargePumpCurrent ∧
    after.registers.get (Pll.vcoCap .rx).address = 0xff := by
  intro c after
  have hok : ((setFrequency .tx 2400000000).run Chip.transport c).result =
      .ok (Divider.ofHz 2400000000) := by decide +kernel
  have htrue : (Loopback.isEngaged.run Chip.transport c).result = .ok true := by decide
  obtain ⟨-, hdividers, ⟨engaged, hengaged, hselOut⟩, hpump, -, -, -, -, -, hother⟩ :=
    setFrequency_programs .tx 2400000000 c rfl rfl _ hok
  obtain rfl := Except.ok.inj (htrue.symm.trans hengaged)
  exact ⟨htrue, hdividers, hselOut.trans (by decide), hpump, hother _ (by decide)⟩

end Synthesizer

end Transceiver
