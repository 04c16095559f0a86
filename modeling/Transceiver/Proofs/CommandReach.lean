import Transceiver.Proofs.CalibrationReach
import Transceiver.Proofs.Settings

/-!
# The reach of a command

What a command can change at all: the footprint of the setting that it sets, if it sets one, and
some bits besides that belong to no setting. Not every command has such a bound. A raw write can get
anywhere, the RXVGA2 switch is half of a setting, the band selection depends on the loopback, and a
change of the loopback sets several settings. A calibration has one of a different kind, since it
writes to settings and puts them back.
-/

namespace Transceiver

open Procedure Register

variable {window : Option (Byte × Byte)}

namespace Command

/-- The setting that a command sets when it succeeds, and what that setting shows then. -/
def establishes : Command → Option (Setting × Reply)
  | .selectPowerAmp pa => some (.powerAmp, .powerAmp pa)
  | .selectLna choice => some (.lna, .lna choice)
  | .setGain (.lna mode) => some (.gain .lna, .gain (.lna mode))
  | .setGain (.db stage request) =>
    some (.gain (.db stage), .gain (.db stage (stage.effective request)))
  | .setFilterMode half mode => some (.filterMode half, .filterMode mode)
  | .enableFilter half on =>
    some (.filterMode half, .filterMode (if on then .normal else .disabled))
  | .setBandwidth half width => some (.bandwidth half, .bandwidth width)
  | .setBandwidthHz half hz => some (.bandwidth half, .bandwidth (LowPass.Bandwidth.ofHz hz))
  | .setSampling input => some (.sampling, .sampling input)
  | .setFrequency half hz => some (.dividers half, .dividers (Divider.ofHz hz))
  | _ => none

/-- Whether a command sets no more than the one setting that it establishes. -/
def isSelective : Command → Bool
  | .writeRaw _ _ | .setBits _ _ | .clearBits _ _ | .enableRxvga2 _ | .selectBand _ _
  | .setLoopback _ => false
  | _ => true

/-- Whether a command calibrates a block. -/
def isCalibration : Command → Bool
  | .calibrate _ => true
  | _ => false

/-- The bits that a command changes and that belong to no setting. -/
def scratch : Command → List Bits
  | .softReset => [.register topControl]
  | .powerDown => [Top.chipEnable.bits]
  | .enableRx _ => [Top.rxEnable.bits]
  | .enableTx _ => [Top.txEnable.bits]
  | .enableFrontEnd _ _ => [Tx.frontEndEnable.bits, Rx.frontEndEnable.bits]
  | .enablePll half _ => [(Pll.enable half).bits]
  | .enableDither half _ _ => [(Pll.dither half).bits, (Pll.ditherBits half).bits]
  | .enableRxvga1 _ => [Rx.vga1Off.bits]
  | .enableLna _ => [Rx.lnaOff.bits, Rx.lnaDecodeOff.bits]
  | .enableLoopbackSwitch _ => [Loop.switch.bits]
  | .enablePeakDetector _ => [Tx.peakDetectorOff.bits]
  | .setFrequency half _ => [
    Clock.txDsm.bits, Clock.rxDsm.bits, .register (Pll.chargePump half).address,
    .register (Pll.offsetUp half).address, .register (Pll.offsetDown half).address,
    .register (Pll.vcoCap half).address]
  | .readCalibration | .loadCalibration _ =>
    Calibration.Block.all.flatMap fun b => (Clock.calibration b).bits :: b.ownReach
  | _ => []

/-- Every bit that a command changes, unless it calibrates. -/
def reach (command : Command) : List Bits :=
  match command.establishes with
  | some (setting, _) => setting.footprint ++ command.scratch
  | none => command.scratch

theorem reach_of_establishes {command : Command} {setting : Setting} {value : Reply}
    (h : command.establishes = some (setting, value)) :
    command.reach = setting.footprint ++ command.scratch := by
  rw [reach, h]

/-- What a command changes besides its setting belongs to no setting. -/
theorem scratch_apart (command : Command) (setting : Setting) :
    ∀ bits ∈ command.scratch, ∀ others ∈ setting.footprint, bits.Apart others := by
  have hall : ∀ setting ∈ Setting.all,
      ∀ bits ∈ command.scratch, ∀ others ∈ setting.footprint, bits.Apart others := by
    cases command with
    | enablePll half _ | enableDither half _ _ | setFrequency half _ =>
      dsimp only [scratch]
      cases half <;> decide +kernel
    | _ =>
      dsimp only [scratch]
      decide +kernel
  exact hall setting setting.mem_all

/-- A command can change no setting but the one it establishes. -/
theorem reach_apart {command : Command} {setting : Setting}
    (h : ∀ value, command.establishes ≠ some (setting, value)) :
    ∀ bits ∈ command.reach, ∀ others ∈ setting.footprint, bits.Apart others := by
  have hscratch := command.scratch_apart setting
  unfold reach
  cases hsets : command.establishes with
  | none => exact hscratch
  | some established =>
    obtain ⟨other, value⟩ := established
    have hne : other ≠ setting := fun heq => h value (heq ▸ hsets)
    intro bits hmem
    rcases List.mem_append.1 hmem with hmem | hmem
    · exact Setting.footprint_apart hne bits hmem
    · exact hscratch bits hmem

end Command

/-! ## Bounds on procedures -/

namespace Procedure

open RegisterFile

variable {α ι : Type} {reach : List Bits} {r₀ : RegisterFile}

/-- However the procedure ends, it has changed bits within reach only. -/
abbrev KeepsTo (window : Option (Byte × Byte)) (reach : List Bits) (p : Procedure α) : Prop :=
  ∀ r₀ : RegisterFile, p.Keeps window (r₀.AgreeOutside reach)

/-- A procedure whose writes go to whole registers within reach keeps to it. -/
theorem keepsTo_of_writesOnly {p : Procedure α}
    (h : p.WritesOnly fun address _ => Bits.register address ∈ reach) :
    p.KeepsTo window reach := by
  intro r₀ r hr
  refine wp_mono (wp_of_writesOnly h r) fun _ r' hkept => hr.trans ?_
  exact agreeOutside_of_get fun address hout => hkept address fun _ => hout

/-- What writes nothing keeps to any reach. -/
theorem keepsTo_of_reads {p : Procedure α} (h : p.WritesOnly fun _ _ => False) :
    p.KeepsTo window reach :=
  keepsTo_of_writesOnly (h.mono fun _ _ hfalse => hfalse.elim)

/-- Assigning a field keeps to its bits. -/
theorem keepsTo_assign {w : Nat} {field : BitField w} (hs : (Site.at field.address).isStored)
    (hmem : field.bits ∈ reach) (value : BitVec w) : (assign field value).KeepsTo window reach :=
  fun _ r hr => (wp_assign hs value).2 (hr.trans (agreeOutside_set hmem r value))

theorem keepsTo_put {flag : Flag} (hs : (Site.at flag.address).isStored)
    (hmem : flag.bits ∈ reach) (on : Bool) : (put flag on).KeepsTo window reach :=
  keepsTo_assign hs hmem (BitVec.ofBool on)

theorem keepsTo_mapM {β : Type} {f : ι → Procedure β} (h : ∀ i, (f i).KeepsTo window reach)
    (l : List ι) : (l.mapM f).KeepsTo window reach := by
  induction l with
  | nil => exact fun _ => keeps_pure []
  | cons i rest ih =>
    rw [List.mapM_cons]
    exact fun r₀ => (h i r₀).bind fun _ => (ih r₀).bind fun _ => keeps_pure _

/-- The bound of a sequence is the bound of both parts. -/
theorem KeepsTo.bind {β : Type} {p : Procedure α} {f : α → Procedure β}
    (hp : p.KeepsTo window reach) (hf : ∀ a, (f a).KeepsTo window reach) :
    (p >>= f).KeepsTo window reach :=
  fun r₀ => (hp r₀).bind fun a => hf a r₀

theorem KeepsTo.map {β : Type} {p : Procedure α} (hp : p.KeepsTo window reach) (f : α → β) :
    (f <$> p).KeepsTo window reach :=
  fun r₀ => (hp r₀).map f

theorem KeepsTo.acknowledge {p : Procedure Unit} (hp : p.KeepsTo window reach) :
    (acknowledge p).KeepsTo window reach :=
  hp.bind fun _ _ => keeps_pure _

end Procedure

/-! ## The operations -/

variable {reach : List Bits}

/-- The two fields of the power amplifier are written together, and nothing else in their register
changes. -/
theorem Amplifier.keepsTo_selectPowerAmp (h : ∀ bits ∈ Setting.powerAmp.footprint, bits ∈ reach)
    (pa : PowerAmp) : (selectPowerAmp pa).KeepsTo window reach := by
  have henable : Tx.paEnable.bits ∈ reach := h _ (by decide)
  have haux : Tx.auxPaOff.bits ∈ reach := h _ (by decide)
  intro r₀ r hr
  rw [selectPowerAmp, wp_modify rfl]
  exact hr.trans (RegisterFile.agreeOutside_set_two henable haux rfl r pa.enableBits
    (BitVec.ofBool pa.auxOff))

theorem Amplifier.keepsTo_selectLna (h : ∀ bits ∈ Setting.lna.footprint, bits ∈ reach)
    (choice : Lna) : (selectLna choice).KeepsTo window reach :=
  keepsTo_assign rfl (h _ (by decide)) choice.bits

namespace LowPass

variable {half : Half}

/-- Putting a filter into a mode changes its two bits only. -/
theorem agreeOutside_moded (h : ∀ bits ∈ (Setting.filterMode half).footprint, bits ∈ reach)
    (mode : Mode) (r : RegisterFile) : RegisterFile.AgreeOutside reach r (moded half mode r) := by
  have henable : (Lpf.enable half).bits ∈ reach := h _ (by simp [Setting.footprint])
  have hbypass : (Lpf.bypass half).bits ∈ reach := h _ (by simp [Setting.footprint])
  exact (RegisterFile.agreeOutside_set henable r _).trans
    (RegisterFile.agreeOutside_set hbypass _ _)

/-- The mode of a filter is set within its footprint. -/
theorem keepsTo_setMode (h : ∀ bits ∈ (Setting.filterMode half).footprint, bits ∈ reach)
    (mode : Mode) : (setMode half mode).KeepsTo window reach :=
  fun _ r hr => (wp_setMode half mode r).2 (hr.trans (agreeOutside_moded h mode r))

/-- Switching a filter on or off is setting a mode, so the bound is the same. -/
theorem keepsTo_enable (h : ∀ bits ∈ (Setting.filterMode half).footprint, bits ∈ reach)
    (on : Bool) : (enable half on).KeepsTo window reach :=
  fun _ r hr => (wp_enable half on r).2 (hr.trans (agreeOutside_moded h _ r))

theorem keepsTo_setBandwidth (h : ∀ bits ∈ (Setting.bandwidth half).footprint, bits ∈ reach)
    (width : Bandwidth) : (setBandwidth half width).KeepsTo window reach :=
  keepsTo_assign (stored_bandwidth half) (h _ List.mem_cons_self) width.code

end LowPass

/-- Switching the dither on writes the number of its bits as well, and switching it off leaves that
number alone. -/
theorem Power.keepsTo_enableDither {h : Half} (hdither : (Pll.dither h).bits ∈ reach)
    (hbits : (Pll.ditherBits h).bits ∈ reach) (bits : Nat) (on : Bool) :
    (enableDither h bits on).KeepsTo window reach := by
  have hstored : (Site.at (Pll.dither h).address).isStored := by cases h <;> rfl
  unfold enableDither
  split
  · split
    · intro r₀ r hr
      rw [wp_modify hstored]
      exact hr.trans (RegisterFile.agreeOutside_set_two hdither hbits rfl r (BitVec.ofBool true) _)
    · exact keepsTo_put hstored hdither false
  · exact fun _ _ hr => hr

/-- A gain is set within the footprint of its stage. A gain mode of the LNA that is none is not
written at all. -/
theorem Gain.keepsTo_set {request : Gain}
    (h : ∀ bits ∈ (Setting.gain request.stage).footprint, bits ∈ reach) :
    (Gain.set request).KeepsTo window reach := by
  cases request with
  | lna gain =>
    have hgain : Rx.lnaGain.bits ∈ reach := h _ List.mem_cons_self
    refine KeepsTo.bind ?_ fun _ _ => keeps_pure _
    cases gain with
    | unknown => exact fun _ _ hr => hr
    | bypass | mid | max => exact keepsTo_assign rfl hgain _
  | db stage request =>
    have hcareful : (setDb stage request).Careful (fun address _ => Bits.register address ∈ reach)
        fun _ => False := careful_setDb (fun _ => h _ List.mem_cons_self) request
    exact (keepsTo_of_writesOnly hcareful.writesOnly).map _

/-- An input is selected by two bits in two registers. -/
theorem Sampling.keepsTo_select (h : ∀ bits ∈ Setting.sampling.footprint, bits ∈ reach)
    (sampling : Sampling) : sampling.select.KeepsTo window reach := by
  have hexternal : Clock.externalAdc.bits ∈ reach := h _ (by decide)
  have hrxvga2 : Rx.vga2Enable.bits ∈ reach := h _ (by decide)
  cases sampling with
  | internal => exact (keepsTo_put rfl hexternal false).bind fun _ => keepsTo_put rfl hrxvga2 true
  | external => exact (keepsTo_put rfl hrxvga2 false).bind fun _ => keepsTo_put rfl hexternal true
  | unknown => exact fun _ _ hr => hr

namespace Synthesizer

/-- Switching the clocks of the modulators changes two bits of their register. -/
theorem agreeOutside_clocked (htx : Clock.txDsm.bits ∈ reach) (hrx : Clock.rxDsm.bits ∈ reach)
    (on : Bool) (r : RegisterFile) : RegisterFile.AgreeOutside reach r (clocked on r) :=
  RegisterFile.agreeOutside_set_two htx hrx rfl r (BitVec.ofBool on) (BitVec.ofBool on)

/-- Tuning a half changes the registers that are programmed and the clocks of the modulators. -/
theorem keepsTo_setFrequency {h : Half}
    (hclocks : Clock.txDsm.bits ∈ reach ∧ Clock.rxDsm.bits ∈ reach)
    (hprogrammed : ∀ address ∈ programmed h, .register address ∈ reach) (request : Nat) :
    (setFrequency h request).KeepsTo window reach := by
  intro r₀ r hr
  have hprogram (hz : Nat) (d : Divider) : (program h hz d).KeepsTo window reach := by
    have hcareful : (program h hz d).Careful (fun address _ => Bits.register address ∈ reach)
        fun _ => False := careful_program (fun address ha _ => hprogrammed address ha) hz d
    exact keepsTo_of_writesOnly hcareful.writesOnly
  rw [wp_setFrequency]
  have hon := hr.trans (agreeOutside_clocked hclocks.1 hclocks.2 true r)
  refine wp_mono (hprogram _ _ r₀ _ hon) fun _ r' hr' => ?_
  exact hr'.trans (agreeOutside_clocked hclocks.1 hclocks.2 false r')

end Synthesizer

namespace Calibration

/-- Reading a slot changes no more than the address of its submodule. -/
theorem keepsTo_readSlot {slot : Slot} (h : ∀ bits ∈ slot.block.ownReach, bits ∈ reach) :
    (readSlot slot).KeepsTo window reach := by
  have hcareful : (readSlot slot).Careful (fun address _ => Bits.register address ∈ reach)
      fun _ => False :=
    careful_readSlot fun _ => h _ (by simp [Block.ownReach, Dc.submodule])
  exact keepsTo_of_writesOnly hcareful.writesOnly

/-- Loading a slot changes the control and the count register of its block. -/
theorem keepsTo_loadSlot {slot : Slot} (h : ∀ bits ∈ slot.block.ownReach, bits ∈ reach)
    (value : Byte) : (loadSlot slot value).KeepsTo window reach := by
  have hcontrol : .register (Dc.submodule slot.block).address ∈ reach :=
    h _ (by simp [Block.ownReach, Dc.submodule])
  have hcount : .register (Dc.count slot.block).address ∈ reach :=
    h _ (by simp [Block.ownReach, Dc.count])
  have hload : .register (Dc.load slot.block).address ∈ reach := hcontrol
  refine keepsTo_of_writesOnly ?_
  simp [loadSlot, hcontrol, hcount, hload]

/-- Loading values changes the registers of the blocks and their calibration clocks. -/
theorem keepsTo_loadValues
    (h : ∀ b, (Clock.calibration b).bits ∈ reach ∧ ∀ bits ∈ b.ownReach, bits ∈ reach)
    (values : Values) : (loadValues values).KeepsTo window reach := by
  have hstored (b : Block) : (Site.at (Clock.calibration b).address).isStored := by
    cases b <;> rfl
  intro r₀
  refine (compositional_keeps window _).loadValues (fun b on => ?_) (fun slot value => ?_) values
  · exact keepsTo_put (hstored b) (h b).1 on r₀
  · exact keepsTo_loadSlot (h slot.block).2 value r₀

end Calibration

/-! ## The commands -/

namespace Command

/-- The footprint of the setting that a command sets is within its reach. -/
theorem mem_reach_of_footprint {command : Command} {setting : Setting} {value : Reply}
    (h : command.establishes = some (setting, value)) :
    ∀ bits ∈ setting.footprint, bits ∈ command.reach := by
  rw [reach_of_establishes h]
  exact fun bits hmem => List.mem_append_left _ hmem

/-- So are the bits besides it. -/
theorem mem_reach_of_scratch {command : Command} {bits : Bits} (hmem : bits ∈ command.scratch) :
    bits ∈ command.reach := by
  unfold reach
  cases command.establishes with
  | none => exact hmem
  | some established => exact List.mem_append_right _ hmem

/-- A getter changes nothing. -/
theorem keepsTo_getter (setting : Setting) : setting.getter.procedure.KeepsTo window reach :=
  fun _ r hr => (setting.wp_getter r).2 hr

/-- A switch outside every setting is within the reach of its command. -/
theorem keepsTo_switch {command : Command} {flag : Flag} (hs : (Site.at flag.address).isStored)
    (hmem : flag.bits ∈ command.scratch) (on : Bool) : (put flag on).KeepsTo window command.reach :=
  keepsTo_put hs (mem_reach_of_scratch hmem) on

/-- A command changes bits within its reach only, however it ends. -/
theorem keepsTo_reach {command : Command} (hselective : command.isSelective)
    (hcalibration : command.isCalibration = false) :
    command.procedure.KeepsTo window command.reach := by
  cases command with
  | writeRaw _ _ | setBits _ _ | clearBits _ _ | enableRxvga2 _ | selectBand _ _ | setLoopback _ =>
    cases hselective
  | calibrate block => cases hcalibration
  -- the getters and the other reads
  | powerAmp => exact keepsTo_getter .powerAmp
  | lna => exact keepsTo_getter .lna
  | gain stage => exact keepsTo_getter (.gain stage)
  | filterMode half => exact keepsTo_getter (.filterMode half)
  | bandwidth half => exact keepsTo_getter (.bandwidth half)
  | sampling => exact keepsTo_getter .sampling
  | dividers half => exact keepsTo_getter (.dividers half)
  | loopback => exact keepsTo_getter .loopback
  | readRaw address =>
    refine keepsTo_of_reads ?_
    simp only [procedure, register]
    split <;> simp
  | frequencyHz half =>
    exact fun _ r hr => wp_map.2 ((Synthesizer.wp_frequencyHz half r).2 hr)
  | loopbackEngaged => exact fun _ r hr => wp_map.2 ((Loopback.wp_isEngaged r).2 hr)
  | dump =>
    have hcareful : Dump.take.Careful (fun _ _ => False) fun _ => False := Dump.careful_take
    exact (keepsTo_of_reads hcareful.writesOnly).map _
  -- the switches
  | softReset =>
    refine KeepsTo.acknowledge (keepsTo_of_writesOnly ?_)
    have hmem : Bits.register topControl ∈ reach softReset := by decide
    simp [Power.softReset, hmem]
  | powerDown => exact KeepsTo.acknowledge (keepsTo_switch rfl List.mem_cons_self _)
  | enableRx on => exact KeepsTo.acknowledge (keepsTo_switch rfl List.mem_cons_self _)
  | enableTx on => exact KeepsTo.acknowledge (keepsTo_switch rfl List.mem_cons_self _)
  | enableFrontEnd half on =>
    refine KeepsTo.acknowledge ?_
    cases half with
    | tx => exact keepsTo_switch rfl List.mem_cons_self on
    | rx => exact keepsTo_switch rfl (List.mem_cons_of_mem _ List.mem_cons_self) on
  | enablePll half on =>
    have hstored : (Site.at (Pll.enable half).address).isStored := by cases half <;> rfl
    exact KeepsTo.acknowledge (keepsTo_switch hstored List.mem_cons_self on)
  | enableDither half bits on =>
    exact KeepsTo.acknowledge (Power.keepsTo_enableDither
      (mem_reach_of_scratch List.mem_cons_self)
      (mem_reach_of_scratch (List.mem_cons_of_mem _ List.mem_cons_self)) bits on)
  | enableRxvga1 on => exact KeepsTo.acknowledge (keepsTo_switch rfl List.mem_cons_self _)
  | enableLna on =>
    refine KeepsTo.acknowledge ((keepsTo_switch rfl List.mem_cons_self _).bind fun _ => ?_)
    exact keepsTo_switch rfl (List.mem_cons_of_mem _ List.mem_cons_self) _
  | enableLoopbackSwitch on => exact KeepsTo.acknowledge (keepsTo_switch rfl List.mem_cons_self _)
  | enablePeakDetector on => exact KeepsTo.acknowledge (keepsTo_switch rfl List.mem_cons_self _)
  -- the setters
  | selectPowerAmp pa =>
    exact KeepsTo.acknowledge (Amplifier.keepsTo_selectPowerAmp (mem_reach_of_footprint rfl) pa)
  | selectLna choice =>
    exact KeepsTo.acknowledge (Amplifier.keepsTo_selectLna (mem_reach_of_footprint rfl) choice)
  | enableFilter half on =>
    exact KeepsTo.acknowledge (LowPass.keepsTo_enable (mem_reach_of_footprint rfl) on)
  | setFilterMode half mode =>
    exact KeepsTo.acknowledge (LowPass.keepsTo_setMode (mem_reach_of_footprint rfl) mode)
  | setBandwidth half width =>
    exact KeepsTo.acknowledge (LowPass.keepsTo_setBandwidth (mem_reach_of_footprint rfl) width)
  | setBandwidthHz half hz =>
    refine KeepsTo.map (KeepsTo.bind ?_ fun _ _ => keeps_pure _) _
    exact LowPass.keepsTo_setBandwidth (mem_reach_of_footprint rfl) _
  | setSampling input =>
    exact KeepsTo.acknowledge (Sampling.keepsTo_select (mem_reach_of_footprint rfl) input)
  | setGain request =>
    refine KeepsTo.map (Gain.keepsTo_set ?_) _
    cases request with
    | lna mode => exact mem_reach_of_footprint rfl
    | db stage gain => exact mem_reach_of_footprint rfl
  | setFrequency half hz =>
    have hclocks : Clock.txDsm.bits ∈ (setFrequency half hz).reach ∧
        Clock.rxDsm.bits ∈ (setFrequency half hz).reach :=
      ⟨mem_reach_of_scratch List.mem_cons_self,
        mem_reach_of_scratch (List.mem_cons_of_mem _ List.mem_cons_self)⟩
    have hprogrammed : ∀ address ∈ Synthesizer.programmed half,
        .register address ∈ (setFrequency half hz).reach := by
      simp [reach, establishes, scratch, Setting.footprint, Synthesizer.settingsRegisters,
        Synthesizer.programmed]
    exact (Synthesizer.keepsTo_setFrequency hclocks hprogrammed hz).map _
  -- the stored values of the calibrations
  | readCalibration =>
    have hown (b : Calibration.Block) : ∀ bits ∈ b.ownReach, bits ∈ readCalibration.reach := by
      cases b <;> decide
    have hreadings : (Calibration.Slot.all.mapM Calibration.readSlot).KeepsTo window
        readCalibration.reach :=
      keepsTo_mapM (fun _ => Calibration.keepsTo_readSlot (hown _)) _
    exact (hreadings.bind fun _ _ => keeps_pure _).map _
  | loadCalibration values =>
    have hblock (b : Calibration.Block) : (Clock.calibration b).bits ∈ scratch readCalibration ∧
        ∀ bits ∈ b.ownReach, bits ∈ scratch readCalibration := by
      cases b <;> decide
    exact KeepsTo.acknowledge (Calibration.keepsTo_loadValues hblock values)

end Command

end Transceiver
