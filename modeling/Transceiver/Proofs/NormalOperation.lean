import Transceiver.Proofs.Programming

/-!
# Normal operation

Leaving the loopback tunes both halves to the frequency that they are programmed to, which may have
been changed while the loopback owned the amplifiers and the output buffers. The frequency is read
back, rounded, and requested again. Neither takes it across the edge of the high band, so that the
amplifier and the output buffer that are chosen for it agree with the frequency that is programmed
in the end. A half that has been tuned before is programmed to the very frequency it had.
-/

namespace Transceiver

open Procedure Register

variable {window : Option (Byte × Byte)}

/-! ## Filters -/

namespace LowPass

/-- The mode of a filter that registers show. -/
def modeOf (h : Half) (r : RegisterFile) : Except Fault Mode :=
  match Mode.ofBits? (r.flag (Lpf.enable h)) (r.flag (Lpf.bypass h)) with
  | some mode => .ok mode
  | none => .error .unexpectedState

theorem stored_enable (h : Half) : (Site.at (Lpf.enable h).address).isStored := by
  cases h <;> rfl

theorem stored_bypass (h : Half) : (Site.at (Lpf.bypass h).address).isStored := by
  cases h <;> rfl

/-- The mode of a filter is read off two flags. -/
theorem wp_mode (h : Half) (r : RegisterFile) {post : Except Fault Mode → RegisterFile → Prop} :
    (mode h).wp window post r ↔ post (modeOf h r) r := by
  rw [mode, wp_bind, wp_readByte (stored_enable h), between_ok, wp_bind,
    wp_readByte (stored_bypass h), between_ok]
  unfold modeOf Mode.decode? RegisterFile.flag
  generalize Mode.ofBits? _ _ = found
  cases found <;> rfl

/-- The registers of a filter with its mode set. -/
def moded (h : Half) (mode : Mode) (r : RegisterFile) : RegisterFile :=
  (r.put (Lpf.enable h) mode.enabled).put (Lpf.bypass h) mode.isBypassed

/-- Setting a mode sets the two flags. -/
theorem wp_setMode (h : Half) (mode : Mode) (r : RegisterFile)
    {post : Except Fault Unit → RegisterFile → Prop} :
    (setMode h mode).wp window post r ↔ post (.ok ()) (moded h mode r) := by
  have hne : (Lpf.enable h).address ≠ (Lpf.bypass h).address := by cases h <;> decide
  rw [setMode, wp_bind, wp_readByte (stored_enable h), between_ok, wp_bind,
    wp_readByte (stored_bypass h), between_ok, moded, RegisterFile.put, RegisterFile.assign,
    RegisterFile.get_put_of_ne hne]
  rfl

/-- Switching a filter sets its mode: it is in normal operation or disabled afterwards. -/
theorem wp_enable (h : Half) (on : Bool) (r : RegisterFile)
    {post : Except Fault Unit → RegisterFile → Prop} :
    (enable h on).wp window post r ↔
      post (.ok ()) (moded h (if on then .normal else .disabled) r) := by
  have hmode : moded h (if on then .normal else .disabled) r =
      (r.put (Lpf.enable h) on).put (Lpf.bypass h) false := by
    cases on <;> rfl
  rw [enable, wp_bind, wp_put (stored_enable h), between_ok, wp_bind,
    wp_readByte (stored_bypass h), between_ok, hmode]
  split
  · rfl
  · next hbypass =>
    -- the bypass bit is clear already, so leaving it alone is clearing it
    have hclear : (r.put (Lpf.enable h) on).flag (Lpf.bypass h) = false :=
      Bool.eq_false_iff.2 hbypass
    have hsame := (r.put (Lpf.enable h) on).put_flag_self (Lpf.bypass h)
    rw [hclear] at hsame
    rw [hsame]
    rfl

/-- The mode depends on nothing but the two flags. -/
theorem modeOf_congr {h : Half} {r r' : RegisterFile}
    (henable : r'.flag (Lpf.enable h) = r.flag (Lpf.enable h))
    (hbypass : r'.flag (Lpf.bypass h) = r.flag (Lpf.bypass h)) : modeOf h r' = modeOf h r := by
  rw [modeOf, henable, hbypass, modeOf]

/-- Other flags leave the mode alone. -/
theorem modeOf_put_of_apart {h : Half} {f : Flag}
    (hf : (Lpf.enable h).Apart f ∧ (Lpf.bypass h).Apart f) (r : RegisterFile) (on : Bool) :
    modeOf h (r.put f on) = modeOf h r :=
  modeOf_congr (RegisterFile.flag_put_of_apart hf.1 r on)
    (RegisterFile.flag_put_of_apart hf.2 r on)

/-- A filter shows the mode that it has been set to. -/
theorem modeOf_moded (h : Half) (mode : Mode) (r : RegisterFile) :
    modeOf h (moded h mode r) = .ok mode := by
  have hapart : (Lpf.enable h).Apart (Lpf.bypass h) := by cases h <;> decide
  rw [modeOf, moded, RegisterFile.flag_put_self, RegisterFile.flag_put_of_apart hapart,
    RegisterFile.flag_put_self, Mode.ofBits?_bits]

end LowPass

/-! ## Amplifiers -/

namespace Amplifier

/-- The selected power amplifier that registers show. -/
def powerAmpOf (r : RegisterFile) : Except Fault PowerAmp :=
  match PowerAmp.decode? (r.get paControl) with
  | some pa => .ok pa
  | none => .error .unexpectedState

/-- The power amplifier is read off its register, or the register decodes to a fault. -/
theorem wp_powerAmp (r : RegisterFile) {post : Except Fault PowerAmp → RegisterFile → Prop} :
    powerAmp.wp window post r ↔ post (powerAmpOf r) r := by
  rw [powerAmp, wp_bind, wp_readByte rfl, between_ok]
  unfold powerAmpOf
  cases PowerAmp.decode? (r.get paControl) <;> rfl

/-- The LNA is read off its field: every code of it is one. -/
theorem wp_lna (r : RegisterFile) {post : Except Fault Lna → RegisterFile → Prop} :
    lna.wp window post r ↔ post (.ok (Lna.ofBits (r.field Rx.lna))) r := by
  rw [lna, wp_map, wp_load rfl]
  rfl

end Amplifier

namespace Loopback

/-! ## Powering up the receive half -/

/-- What normal operation does to the receive half before tuning it. -/
def powerUp : Procedure Unit := do
  let filter ← LowPass.mode .rx
  Power.enableRxvga1 true
  reviveFilter filter
  Power.enableRxvga2 true
  Power.enableLoopbackSwitch false
  Power.enableLna true

/-- Preparing the receive half for normal operation is powering it up and going back to its band. -/
theorem prepareRx_none : prepareRx .none = (do powerUp; restoreBand .rx) := by
  simp only [prepareRx, powerUp, LawfulMonad.bind_assoc]

/-- The receive half is powered up and the radio frequency loopback is switched off. -/
structure Powered (r : RegisterFile) : Prop where
  switchOff : r.flag Loop.switch = false
  lna : r.flag Rx.lnaOff = false
  lnaDecode : r.flag Rx.lnaDecodeOff = false
  rxvga1 : r.flag Rx.vga1Off = false
  rxvga2 : r.flag Rx.vga2Enable = true
  filter : LowPass.modeOf .rx r = .ok .normal ∨ LowPass.modeOf .rx r = .ok .bypassed

/-- Whether the receive half is powered up depends on some registers. -/
theorem Powered.congr {r r' : RegisterFile} (h : Powered r)
    (hkept : ∀ address ∈ poweredRegisters, r'.get address = r.get address) : Powered r' := by
  have hflag (f : Flag) (hf : f.address ∈ poweredRegisters) : r'.flag f = r.flag f := by
    rw [RegisterFile.flag, hkept _ hf, RegisterFile.flag]
  have hmode : LowPass.modeOf .rx r' = LowPass.modeOf .rx r :=
    LowPass.modeOf_congr (hflag _ (by decide)) (hflag _ (by decide))
  constructor
  · exact (hflag _ (by decide)).trans h.switchOff
  · exact (hflag _ (by decide)).trans h.lna
  · exact (hflag _ (by decide)).trans h.lnaDecode
  · exact (hflag _ (by decide)).trans h.rxvga1
  · exact (hflag _ (by decide)).trans h.rxvga2
  · rw [hmode]
    exact h.filter

/-- A filter that was found disabled is in normal operation afterwards, and any other mode is
kept. -/
theorem wp_reviveFilter {r : RegisterFile} {found : LowPass.Mode}
    (hfound : LowPass.modeOf .rx r = .ok found) :
    (reviveFilter found).wp window (fun result r' => result = .ok () ∧
      (LowPass.modeOf .rx r' = .ok .normal ∨ LowPass.modeOf .rx r' = .ok .bypassed) ∧
      r'.flag Rx.vga1Off = r.flag Rx.vga1Off) r := by
  unfold reviveFilter
  split
  · rw [LowPass.wp_setMode]
    refine ⟨rfl, .inl (LowPass.modeOf_moded .rx .normal r), ?_⟩
    rw [LowPass.moded, RegisterFile.flag_put_of_apart (by decide),
      RegisterFile.flag_put_of_apart (by decide)]
  · next henabled =>
    refine ⟨rfl, ?_, rfl⟩
    rw [hfound]
    cases found with
    | normal => exact .inl rfl
    | bypassed => exact .inr rfl
    | disabled => exact absurd rfl henabled

/-- Powering up the receive half powers it up, if its filter has a mode at all. -/
theorem wp_powerUp (r : RegisterFile) :
    powerUp.wp window (fun result r' => ∀ u, result = .ok u → Powered r') r := by
  rw [powerUp, wp_bind, LowPass.wp_mode]
  cases hmode : LowPass.modeOf .rx r with
  | error fault => rintro _ ⟨⟩
  | ok found =>
    rw [between_ok, wp_bind, Power.enableRxvga1, wp_put rfl, between_ok, wp_bind]
    have hfound : LowPass.modeOf .rx (r.put Rx.vga1Off false) = .ok found := by
      rw [LowPass.modeOf_put_of_apart (by decide), hmode]
    refine wp_mono (wp_reviveFilter hfound) fun result r' hrevived => ?_
    obtain ⟨rfl, hfilter, hvga1⟩ := hrevived
    rw [RegisterFile.flag_put_self] at hvga1
    rw [between_ok, wp_bind, Power.enableRxvga2, wp_put rfl, between_ok, wp_bind,
      Power.enableLoopbackSwitch, wp_put rfl, between_ok, Power.enableLna, wp_bind, wp_put rfl,
      between_ok, wp_put rfl]
    intro _ _
    -- each flag is read through the ones that have been put after it
    constructor
    · rw [RegisterFile.flag_put_of_apart (by decide), RegisterFile.flag_put_of_apart (by decide),
        RegisterFile.flag_put_self]
    · rw [RegisterFile.flag_put_of_apart (by decide), RegisterFile.flag_put_self]
      rfl
    · rw [RegisterFile.flag_put_self]
      rfl
    · rw [RegisterFile.flag_put_of_apart (by decide), RegisterFile.flag_put_of_apart (by decide),
        RegisterFile.flag_put_of_apart (by decide), RegisterFile.flag_put_of_apart (by decide)]
      exact hvga1
    · rw [RegisterFile.flag_put_of_apart (by decide), RegisterFile.flag_put_of_apart (by decide),
        RegisterFile.flag_put_of_apart (by decide), RegisterFile.flag_put_self]
    · rw [LowPass.modeOf_put_of_apart (by decide), LowPass.modeOf_put_of_apart (by decide),
        LowPass.modeOf_put_of_apart (by decide), LowPass.modeOf_put_of_apart (by decide)]
      exact hfilter

/-- Powering up writes to the registers that it is read off and to no others. -/
theorem writesOnly_powerUp : powerUp.WritesOnly fun address _ => address ∈ poweredRegisters := by
  have hmode : (LowPass.mode .rx).Careful (fun address _ => address ∈ poweredRegisters)
      fun _ => True := LowPass.careful_mode .rx
  have hvga1 := writesOnly_put_powered (show Rx.vga1Off.address ∈ _ by decide) false
  have hvga2 := writesOnly_put_powered (show Rx.vga2Enable.address ∈ _ by decide) true
  have hswitch := writesOnly_put_powered (show Loop.switch.address ∈ _ by decide) false
  have hlna := writesOnly_put_powered (show Rx.lnaOff.address ∈ _ by decide) false
  have hdecode := writesOnly_put_powered (show Rx.lnaDecodeOff.address ∈ _ by decide) false
  simp [powerUp, Power.enableRxvga1, Power.enableRxvga2, Power.enableLoopbackSwitch,
    Power.enableLna, hmode.writesOnly, writesOnly_reviveFilter, hvga1, hvga2, hswitch,
    hlna, hdecode]

/-! ## Restoring the band -/

end Loopback

namespace Synthesizer

/-- The amplifier of a half is the one for the band of `hz`. -/
def Amplified (h : Half) (hz : Nat) (r : RegisterFile) : Prop :=
  match h with
  | .tx => Amplifier.PowerAmp.decode? (r.get paControl) =
      some (if highBandHz ≤ hz then .pa2 else .pa1)
  | .rx => Amplifier.Lna.ofBits (r.field Rx.lna) = if highBandHz ≤ hz then .lna2 else .lna1

/-- A half is programmed for a request, with the output buffer and the amplifier of its band. -/
structure Restored (h : Half) (hz : Nat) (r : RegisterFile) : Prop where
  settings : dividersOf h r = .ok (Divider.ofHz hz)
  buffer : r.field (Pll.selOut h) = outputBuffer hz
  amplifier : Amplified h hz r

/-- The registers that show whether a half is restored. -/
def restoredRegisters (h : Half) : List Address :=
  amplifierRegister h :: settingsRegisters h

/-- Whether a half is restored depends on some registers. -/
theorem Restored.congr {h : Half} {hz : Nat} {r r' : RegisterFile} (hr : Restored h hz r)
    (hkept : ∀ address ∈ restoredRegisters h, r'.get address = r.get address) :
    Restored h hz r' := by
  have hsettings (address : Address) (ha : address ∈ settingsRegisters h) :
      r'.get address = r.get address := hkept address (List.mem_cons_of_mem _ ha)
  have hbuffer : r'.field (Pll.selOut h) = r.field (Pll.selOut h) := by
    have hmem : (Pll.selOut h).address ∈ settingsRegisters h := by cases h <;> decide
    rw [RegisterFile.field, hsettings _ hmem, RegisterFile.field]
  refine ⟨(dividersOf_congr hsettings).trans hr.settings, hbuffer.trans hr.buffer, ?_⟩
  have hold := hr.amplifier
  cases h with
  | tx =>
    have hcontrol : r'.get paControl = r.get paControl := hkept paControl List.mem_cons_self
    rw [Amplified, hcontrol]
    exact hold
  | rx =>
    have hlna : r'.field Rx.lna = r.field Rx.lna :=
      congrArg Rx.lna.get (hkept lnaControl List.mem_cons_self)
    rw [Amplified, hlna]
    exact hold

/-- Clamping a request does not change its output buffer: both limits lie within their bands. -/
theorem outputBuffer_clampHz (hz : Nat) : outputBuffer (clampHz hz) = outputBuffer hz := by
  have h := highBand_clampHz hz
  unfold outputBuffer
  grind

/-- Selecting the amplifier of a half leaves its settings alone. -/
theorem wp_selectBand_amplified (h : Half) (hz : Nat) {r : RegisterFile}
    (hopen : Loopback.shown r = .none) :
    (selectBand h hz).wp window (fun _ r' => Amplified h hz r' ∧
      ∀ address ∈ settingsRegisters h, r'.get address = r.get address) r := by
  rw [wp_selectBand h hz hopen]
  have hne : ∀ address ∈ settingsRegisters h, amplifierRegister h ≠ address := by
    cases h <;> decide
  cases h with
  | tx =>
    refine ⟨?_, fun address ha => RegisterFile.get_set_of_ne _ (hne address ha) _⟩
    rw [Amplified, RegisterFile.get_set_self, Loopback.decode?_select]
  | rx =>
    refine ⟨?_, fun address ha => RegisterFile.get_assign_of_ne (hne address ha) _ _⟩
    rw [Amplified, RegisterFile.field_assign_self, Amplifier.Lna.ofBits_bits]

end Synthesizer

namespace Loopback

/-- Restoring the band of a half tunes it to the frequency it is programmed to, and selects the
output buffer and the amplifier for that. -/
theorem wp_restoreBand (h : Half) {r : RegisterFile} (hopen : shown r = .none) :
    (restoreBand h).wp window (fun result r' => ∀ u, result = .ok u →
      ∃ hz, Synthesizer.frequencyOf h r = .ok hz ∧ Synthesizer.Restored h hz r') r := by
  rw [restoreBand, wp_bind, Synthesizer.wp_frequencyHz]
  cases Synthesizer.frequencyOf h r with
  | error fault => rintro _ ⟨⟩
  | ok hz =>
    rw [between_ok]
    refine wp_bind_of_ok (wp_mono (wp_and (Synthesizer.wp_setFrequency_settings h hz r)
      (wp_of_writesOnly (writesOnly_setFrequency h hz) r)) fun _ _ hboth _ _ => hboth)
      fun d r' hboth => ?_
    obtain ⟨⟨hsettings, hbuffer⟩, hkept⟩ := hboth
    have hopen' : shown r' = .none := by
      rw [shown, hkept loopbackControl fun _ hne => hne.1 rfl,
        hkept basebandLoop fun _ hne => hne.2 rfl]
      exact hopen
    refine wp_mono (Synthesizer.wp_selectBand_amplified h hz hopen') fun _ r'' hselected _ _ => ?_
    obtain ⟨hamplified, hsame⟩ := hselected
    refine ⟨hz, rfl, ?_, ?_, hamplified⟩
    · rw [Synthesizer.dividersOf_congr hsame, hsettings]
    · have hmem : (Pll.selOut h).address ∈ Synthesizer.settingsRegisters h := by
        cases h <;> decide
      rw [RegisterFile.field, hsame _ hmem, hbuffer hopen, Synthesizer.outputBuffer_clampHz]

/-! ## Leaving the loopback -/

/-- The registers with the path switches set for a mode. -/
def switched (mode : Mode) (r : RegisterFile) : RegisterFile :=
  (r.set basebandLoop (mode.closeSource (r.get basebandLoop))).set loopbackControl
    (mode.closePath (r.get loopbackControl))

/-- The registers with path switches. -/
def switchRegisters : List Address := [basebandLoop, loopbackControl]

/-- Setting the path switches leaves all other registers alone. -/
theorem get_switched {address : Address} (ha : address ∉ switchRegisters) (mode : Mode)
    (r : RegisterFile) : (switched mode r).get address = r.get address := by
  simp only [switchRegisters, List.mem_cons, List.not_mem_nil, or_false, not_or] at ha
  rw [switched, RegisterFile.get_set_of_ne _ (Ne.symm ha.2),
    RegisterFile.get_set_of_ne _ (Ne.symm ha.1)]

/-- The path switches are set for the mode, whatever they were. -/
theorem wp_closeSwitches (mode : Mode) (r : RegisterFile)
    {post : Except Fault Unit → RegisterFile → Prop} :
    (closeSwitches mode).wp window post r ↔ post (.ok ()) (switched mode r) := by
  rw [closeSwitches, wp_bind, wp_readByte rfl, between_ok, wp_bind, wp_readByte rfl, between_ok,
    wp_bind, wp_writeByte, between_ok, wp_writeByte]
  rfl

/-- The registers that are written before the receive half is powered up. -/
def quietRegisters : List Address :=
  paControl :: lnaControl :: switchRegisters

/-- The phase before the halves are set up ends with all path switches open. -/
theorem wp_quiet (mode : Mode) (r : RegisterFile) :
    (do silence mode; closeSwitches .none : Procedure Unit).wp window (fun result r' =>
      result = .ok () ∧
      AllOpen r' ∧ ∀ address, address ∉ quietRegisters → r'.get address = r.get address) r := by
  rw [silence, wp_bind, wp_bind, wp_log, between_ok, wp_bind, Amplifier.selectPowerAmp,
    wp_modify rfl, between_ok, Amplifier.selectLna, wp_assign rfl, between_ok, wp_closeSwitches]
  refine ⟨rfl, allOpen_opened _, fun address ha => ?_⟩
  rw [quietRegisters, List.mem_cons, List.mem_cons, not_or, not_or] at ha
  obtain ⟨hpa, hlna, hswitch⟩ := ha
  rw [get_switched hswitch, RegisterFile.get_assign_of_ne (Ne.symm hlna),
    RegisterFile.get_set_of_ne _ (Ne.symm hpa)]

/-- Normal operation is restored behind open path switches: the receive half is powered up, and both
halves are tuned again to the frequencies they are programmed to. -/
theorem wp_setUpHalves_none {r : RegisterFile} (hopen : AllOpen r) :
    (setUpHalves .none).wp window (fun result r' => ∀ u, result = .ok u → Powered r' ∧
      ∀ h, ∃ hz, Synthesizer.frequencyOf h r = .ok hz ∧ Synthesizer.Restored h hz r') r := by
  -- what one step writes is not what the steps before it have set up
  have hsettings : ∀ h, ∀ address ∈ Synthesizer.settingsRegisters h,
      address ∉ poweredRegisters := by
    intro h
    cases h <;> decide
  have htx : ∀ address ∈ Synthesizer.settingsRegisters .tx, address ∉ bandRegisters .rx := by decide
  have hrx : ∀ address ∈ Synthesizer.restoredRegisters .rx, address ∉ bandRegisters .tx := by decide
  have hpowered : ∀ h, ∀ address ∈ poweredRegisters, address ∉ bandRegisters h := by
    intro h
    cases h <;> decide
  have hpaths : ∀ address ∈ switchRegisters,
      address ∉ poweredRegisters ∧ address ∉ bandRegisters .rx := by decide
  rw [setUpHalves, prepareRx_none, LawfulMonad.bind_assoc, prepareTx]
  refine wp_bind_of_ok (wp_framed writesOnly_powerUp (wp_powerUp r)) fun _ r₁ hfirst => ?_
  obtain ⟨hpower, hkept₁⟩ := hfirst
  have hopen₁ : shown r₁ = .none := by
    rw [shown, hkept₁ _ (hpaths _ (by simp [switchRegisters])).1,
      hkept₁ _ (hpaths _ (by simp [switchRegisters])).1]
    exact hopen.shown
  refine wp_bind_of_ok
    (wp_framed (writesOnly_restoreBand .rx) (wp_restoreBand .rx hopen₁))
    fun _ r₂ hsecond => ?_
  obtain ⟨⟨hzRx, hfreqRx, hrestoredRx⟩, hkept₂⟩ := hsecond
  have hopen₂ : shown r₂ = .none := by
    rw [shown, hkept₂ _ (hpaths _ (by simp [switchRegisters])).2,
      hkept₂ _ (hpaths _ (by simp [switchRegisters])).2]
    exact hopen₁
  refine wp_mono (wp_framed (writesOnly_restoreBand .tx) (wp_restoreBand .tx hopen₂))
    fun _ r₃ hlast u hu => ?_
  obtain ⟨⟨hzTx, hfreqTx, hrestoredTx⟩, hkept₃⟩ := hlast u hu
  refine ⟨?_, fun h => ?_⟩
  · have h₂ := hpower.congr fun address ha => hkept₂ address (hpowered .rx address ha)
    exact h₂.congr fun address ha => hkept₃ address (hpowered .tx address ha)
  · cases h with
    | rx =>
      refine ⟨hzRx, ?_, hrestoredRx.congr fun address ha => hkept₃ address (hrx address ha)⟩
      rw [← hfreqRx, Synthesizer.frequencyOf_congr fun address ha =>
        hkept₁ address (hsettings .rx address ha)]
    | tx =>
      refine ⟨hzTx, ?_, hrestoredTx⟩
      rw [← hfreqTx, Synthesizer.frequencyOf_congr fun address ha =>
          hkept₂ address (htx address ha), Synthesizer.frequencyOf_congr fun address ha =>
        hkept₁ address (hsettings .tx address ha)]

/-- Leaving the loopback opens every path switch, powers up the receive half, and tunes both halves
again to the frequencies they were programmed to. -/
theorem wp_change_none (r : RegisterFile) :
    (change .none).wp window (fun result r' => ∀ u, result = .ok u → AllOpen r' ∧ Powered r' ∧
      ∀ h, ∃ hz, Synthesizer.frequencyOf h r = .ok hz ∧ Synthesizer.Restored h hz r') r := by
  have hsettings : ∀ h, ∀ address ∈ Synthesizer.settingsRegisters h, address ∉ quietRegisters := by
    intro h
    cases h <;> decide
  have hrestored : ∀ h, ∀ address ∈ Synthesizer.restoredRegisters h,
      address ∉ switchRegisters := by
    intro h
    cases h <;> decide
  have hpowered : ∀ address ∈ poweredRegisters, address ∉ switchRegisters := by
    decide
  have hphases : change .none = (do
      (do silence .none; closeSwitches .none : Procedure Unit)
      setUpHalves .none
      closeSwitches .none) := by
    simp only [change_eq, prepare, LawfulMonad.bind_assoc]
  rw [hphases, wp_bind]
  -- the frequency of a half is read before it is tuned, from registers that nothing has touched yet
  refine wp_mono (wp_quiet .none r) fun result r₁ hquiet => ?_
  obtain ⟨rfl, hopen₁, hkept₁⟩ := hquiet
  rw [between_ok]
  refine wp_bind_of_ok (wp_setUpHalves_none hopen₁) fun _ r₂ hset => ?_
  obtain ⟨hpower, hhalves⟩ := hset
  rw [wp_closeSwitches]
  intro _ _
  refine ⟨allOpen_opened _, hpower.congr fun address ha => get_switched (hpowered address ha) _ _,
    fun h => ?_⟩
  obtain ⟨hz, hfreq, hr⟩ := hhalves h
  refine ⟨hz, ?_, hr.congr fun address ha => get_switched (hrestored h address ha) _ _⟩
  rw [← hfreq, Synthesizer.frequencyOf_congr fun address ha =>
    hkept₁ address (hsettings h address ha)]

end Loopback

end Transceiver
