import Transceiver.Proofs.CommandReach
import Transceiver.Proofs.TuningWindow

/-!
# Setters

A setter is successful, and from then on its setting shows the value that it stands for, in the end
and whatever the registers held before. There are two settings that can only be read, the gain mode
and the input of the ADC that are called unknown: to set them is refused, and nothing is changed.
-/

namespace Transceiver

open Procedure Register

variable {window : Option (Byte × Byte)}

/-- Whether a value stands for no setting. -/
def Reply.isUnknown : Reply → Bool
  | .gain (.lna .unknown) | .sampling .unknown => true
  | _ => false

/-! ## Gains -/

namespace DbStage

/-- A clamped gain lies in the range of its stage. -/
theorem clamp_mem (stage : DbStage) (request : Int) :
    stage.low ≤ stage.clamp request ∧ stage.clamp request ≤ stage.high := by
  have hrange : stage.low ≤ stage.high := by cases stage <;> decide
  unfold clamp
  omega

/-- A gain in range is not clamped. -/
theorem clamp_of_mem {stage : DbStage} {gain : Int} (h : stage.low ≤ gain ∧ gain ≤ stage.high) :
    stage.clamp gain = gain := by
  unfold clamp
  omega

/-- A request gets the same gain as what it is clamped to. -/
theorem effective_clamp (stage : DbStage) (request : Int) :
    stage.effective (stage.clamp request) = stage.effective request := by
  cases stage <;> simp only [effective, clamp_of_mem (clamp_mem _ request)]

/-- Whatever else a register holds, the gain is all that is decoded. -/
theorem decode_encode_old (stage : DbStage) (gain : Int) (old : Byte) :
    stage.decode (stage.encode gain old) = stage.decode (stage.encode gain 0) := by
  cases stage with
  | rxvga1 | rxvga2 | txvga1 => rfl
  | txvga2 => simp only [encode, decode, BitField.get_set_self]

/-- A gain that is programmed is read back as the gain that its request got. -/
theorem decode_encode_clamp (stage : DbStage) (request : Int) (old : Byte) :
    stage.decode (stage.encode (stage.clamp request) old) = stage.effective request := by
  have hcodes : ∀ k : Fin 32, stage.low + (k.val : Int) ≤ stage.high →
      stage.decode (stage.encode (stage.low + (k.val : Int)) 0) =
        stage.effective (stage.low + (k.val : Int)) := by
    cases stage <;> decide +kernel
  obtain ⟨hlow, hhigh⟩ := stage.clamp_mem request
  have hwidth : stage.high - stage.low < 32 := by cases stage <;> decide
  have hk : (stage.clamp request - stage.low).toNat < 32 := by omega
  have hsum : stage.low + ((stage.clamp request - stage.low).toNat : Int) =
      stage.clamp request := by omega
  have hcode := hcodes ⟨_, hk⟩
  simp only [hsum] at hcode
  rw [decode_encode_old, hcode hhigh, effective_clamp]

end DbStage

namespace Gain

/-- A gain is set by writing its code, into the old contents of the register where the register
holds something else too. -/
theorem wp_setDb (stage : DbStage) (request : Int) (r : RegisterFile)
    {post : Except Fault Int → RegisterFile → Prop} :
    (setDb stage request).wp window post r ↔ post (.ok (stage.effective request))
      (r.set stage.address (stage.encode (stage.clamp request) (r.get stage.address))) := by
  have hnote {post : Except Fault Unit → RegisterFile → Prop} :
      (noteClamped stage (stage.clamp request) request).wp window post r ↔ post (.ok ()) r := by
    unfold noteClamped
    split <;> rfl
  rw [setDb, wp_bind, hnote, between_ok, wp_bind]
  cases stage with
  | rxvga1 | rxvga2 | txvga1 => rfl
  | txvga2 => rw [store, wp_modify rfl, between_ok, wp_pure]

end Gain

/-! ## Every setter -/

/-- A command that acknowledges a procedure does what the procedure does and returns nothing. -/
theorem Procedure.wp_acknowledge {p : Procedure Unit} {r : RegisterFile}
    {post : Except Fault Reply → RegisterFile → Prop} :
    (acknowledge p).wp window post r ↔
      p.wp window (fun result => post (result.map fun _ => .unit)) r := by
  rw [acknowledge, wp_bind]
  refine wp_congr fun result r' => ?_
  cases result <;> rfl

/-- How a setter ends. A value that stands for no setting is refused and changes nothing. Any other
one is what the setting shows in the end, and it is returned unless nothing is. -/
def Setting.SetTo (setting : Setting) (value : Reply) (r : RegisterFile)
    (result : Except Fault Reply) (r' : RegisterFile) : Prop :=
  if value.isUnknown then result = .error .invalidArgument ∧ r' = r
  else (result = .ok .unit ∨ result = .ok value) ∧ setting.shown r' = .ok value

namespace Setting

variable {r r' : RegisterFile} {setting : Setting} {value : Reply}

/-- A setter may return nothing. -/
theorem setTo_silent (hknown : value.isUnknown = false) (hshown : setting.shown r' = .ok value) :
    setting.SetTo value r (.ok .unit) r' := by
  rw [SetTo, hknown]
  exact ⟨.inl rfl, hshown⟩

/-- A setter may return the value that it has set. -/
theorem setTo_replied (hknown : value.isUnknown = false) (hshown : setting.shown r' = .ok value) :
    setting.SetTo value r (.ok value) r' := by
  rw [SetTo, hknown]
  exact ⟨.inr rfl, hshown⟩

/-- A value that stands for no setting may be refused. -/
theorem setTo_refused (hunknown : value.isUnknown) :
    setting.SetTo value r (.error .invalidArgument) r := by
  rw [SetTo, if_pos hunknown]
  exact ⟨rfl, rfl⟩

/-- A filter that is put into a mode shows it. -/
theorem shown_moded (half : Half) (mode : LowPass.Mode) (r : RegisterFile) :
    (Setting.filterMode half).shown (LowPass.moded half mode r) = .ok (.filterMode mode) := by
  rw [shown, LowPass.modeOf_moded]
  rfl

/-- A bandwidth that is set is shown. -/
theorem shown_bandwidth (half : Half) (width : LowPass.Bandwidth) (r : RegisterFile) :
    (Setting.bandwidth half).shown (r.assign (Lpf.bandwidth half) width.code) =
      .ok (.bandwidth width) := by
  rw [shown, RegisterFile.field_assign_self, LowPass.Bandwidth.ofCode_code]

end Setting

namespace Command

open Synthesizer

variable {w : Byte × Byte} {r : RegisterFile}

/-- The gain mode of the LNA is set, or refused if it is none. -/
theorem wp_setGain_lna (mode : Amplifier.LnaGain) :
    (setGain (.lna mode)).procedure.wp window ((Setting.gain .lna).SetTo (.gain (.lna mode)) r)
      r := by
  have hset (known : Amplifier.LnaGain) (h : known ≠ .unknown) :
      (Setting.gain .lna).SetTo (.gain (.lna known)) r (.ok (.gain (.lna known)))
        (r.assign Rx.lnaGain known.bits) := by
    have hknown : (Reply.gain (.lna known)).isUnknown = false := by
      cases known <;> first | rfl | exact absurd rfl h
    refine Setting.setTo_replied hknown ?_
    rw [Setting.shown, Gain.gainOf, RegisterFile.field_assign_self, Amplifier.LnaGain.ofBits_bits,
      if_neg h]
    rfl
  have hrefused : (Setting.gain .lna).SetTo (.gain (.lna .unknown)) r (.error .invalidArgument) r :=
    Setting.setTo_refused rfl
  rw [procedure, wp_map, Gain.set, wp_bind]
  cases mode with
  | unknown => exact hrefused
  | bypass => exact (wp_assign rfl _).2 (hset .bypass (by decide))
  | mid => exact (wp_assign rfl _).2 (hset .mid (by decide))
  | max => exact (wp_assign rfl _).2 (hset .max (by decide))

/-- A gain in dB is set to what the request gets, so that no request is refused. -/
theorem wp_setGain_db (stage : DbStage) (request : Int) :
    (setGain (.db stage request)).procedure.wp window
      ((Setting.gain (.db stage)).SetTo (.gain (.db stage (stage.effective request))) r) r := by
  rw [procedure, wp_map, Gain.set, wp_map, Gain.wp_setDb]
  refine Setting.setTo_replied rfl ?_
  rw [Setting.shown, Gain.gainOf, RegisterFile.get_set_self, DbStage.decode_encode_clamp]
  rfl

/-- An input is selected by both bits, or refused if it is none. -/
theorem wp_setSampling (input : Sampling) :
    (setSampling input).procedure.wp window (Setting.sampling.SetTo (.sampling input) r) r := by
  have hapart : Rx.vga2Enable.Apart Clock.externalAdc ∧ Clock.externalAdc.Apart Rx.vga2Enable := by
    decide
  rw [procedure, wp_acknowledge]
  cases input with
  | unknown => exact Setting.setTo_refused rfl
  | internal =>
    rw [Sampling.select, wp_bind, wp_put rfl, between_ok, Power.enableRxvga2, wp_put rfl]
    refine Setting.setTo_silent rfl ?_
    rw [Setting.shown, RegisterFile.flag_put_self, RegisterFile.flag_put_of_apart hapart.2,
      RegisterFile.flag_put_self]
    rfl
  | external =>
    rw [Sampling.select, wp_bind, Power.enableRxvga2, wp_put rfl, between_ok, wp_put rfl]
    refine Setting.setTo_silent rfl ?_
    rw [Setting.shown, RegisterFile.flag_put_self, RegisterFile.flag_put_of_apart hapart.1,
      RegisterFile.flag_put_self]
    rfl

/-- A tuning whose VCO locks sets the dividers and returns them. -/
theorem wp_setFrequency_setTo (hw : Locks w) (half : Half) (request : Nat) :
    (setFrequency half request).procedure.wp (some w)
      ((Setting.dividers half).SetTo (.dividers (Divider.ofHz request)) r) r := by
  rw [procedure, wp_map]
  refine wp_mono (wp_and (wp_setFrequency_settings half request r)
    (wp_setFrequency_locks hw half request r)) fun result r' hboth => ?_
  obtain ⟨⟨hsettings, -⟩, rfl⟩ := hboth
  refine Setting.setTo_replied rfl ?_
  rw [Setting.shown, hsettings]
  rfl

/-- A setter ends with its setting set. -/
theorem wp_establishes (hw : Locks w) {command : Command} {setting : Setting} {value : Reply}
    (h : command.establishes = some (setting, value)) :
    command.procedure.wp (some w) (setting.SetTo value r) r := by
  -- a setter ends with what its getter reads, which is one lemma of each setting
  cases command with
  | selectPowerAmp pa =>
    obtain ⟨rfl, rfl⟩ := Prod.mk.inj (Option.some.inj h)
    rw [procedure, wp_acknowledge, Amplifier.selectPowerAmp, wp_modify rfl]
    refine Setting.setTo_silent rfl ?_
    rw [Setting.shown, Amplifier.powerAmpOf, RegisterFile.get_set_self, Loopback.decode?_select]
    rfl
  | selectLna choice =>
    obtain ⟨rfl, rfl⟩ := Prod.mk.inj (Option.some.inj h)
    rw [procedure, wp_acknowledge, Amplifier.selectLna, wp_assign rfl]
    refine Setting.setTo_silent rfl ?_
    rw [Setting.shown, RegisterFile.field_assign_self, Amplifier.Lna.ofBits_bits]
  | setGain request =>
    cases request with
    | lna mode =>
      obtain ⟨rfl, rfl⟩ := Prod.mk.inj (Option.some.inj h)
      exact wp_setGain_lna mode
    | db stage request =>
      obtain ⟨rfl, rfl⟩ := Prod.mk.inj (Option.some.inj h)
      exact wp_setGain_db stage request
  | setFilterMode half mode =>
    obtain ⟨rfl, rfl⟩ := Prod.mk.inj (Option.some.inj h)
    rw [procedure, wp_acknowledge, LowPass.wp_setMode]
    exact Setting.setTo_silent rfl (Setting.shown_moded half mode r)
  | enableFilter half on =>
    obtain ⟨rfl, rfl⟩ := Prod.mk.inj (Option.some.inj h)
    rw [procedure, wp_acknowledge, LowPass.wp_enable]
    exact Setting.setTo_silent rfl (Setting.shown_moded half _ r)
  | setBandwidth half width =>
    obtain ⟨rfl, rfl⟩ := Prod.mk.inj (Option.some.inj h)
    rw [procedure, wp_acknowledge, LowPass.setBandwidth, wp_assign (LowPass.stored_bandwidth half)]
    exact Setting.setTo_silent rfl (Setting.shown_bandwidth half width r)
  | setBandwidthHz half hz =>
    obtain ⟨rfl, rfl⟩ := Prod.mk.inj (Option.some.inj h)
    rw [procedure, wp_map, LowPass.setBandwidthHz, wp_bind, LowPass.setBandwidth,
      wp_assign (LowPass.stored_bandwidth half), between_ok, wp_pure]
    exact Setting.setTo_replied rfl (Setting.shown_bandwidth half _ r)
  | setSampling input =>
    obtain ⟨rfl, rfl⟩ := Prod.mk.inj (Option.some.inj h)
    exact wp_setSampling input
  | setFrequency half hz =>
    obtain ⟨rfl, rfl⟩ := Prod.mk.inj (Option.some.inj h)
    exact wp_setFrequency_setTo hw half hz
  | _ => cases h

end Command

end Transceiver
