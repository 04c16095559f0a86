import Transceiver.Proofs.CommandWrites
import Transceiver.Proofs.Settings
import Transceiver.Proofs.Upholding

/-!
# The input of the ADC

The ADC can be driven by the external pins and by RXVGA2, and it is not to be driven by both. A bit
tells for each of the two whether it drives, and the bits lie in two registers. As long as one of
them is off and left alone, there is no clash, whatever is done to the other one and whatever is
refused on the way. So most commands are settled by the side that is off: both bits are left alone
by nearly everything, by the calibrations too, which write back the register with the bit of the
pins as they have read it.

Selecting an input switches over in an order that leaves both off for a moment. A change of the
loopback does not select an input. It turns RXVGA2 on for every mode and takes no notice of the
pins.
-/

namespace Transceiver

open Procedure Register

/-! ## Sparing a flag -/

namespace Procedure

variable {α : Type} {f : Flag}

/-- Whatever is refused, the flag is at every moment what it was at the start. -/
def Spares (f : Flag) (p : Procedure α) : Prop :=
  ∀ on, p.Maintains fun r => r.flag f = on

/-- What spares a flag does so part by part. -/
theorem compositional_spares (f : Flag) : Compositional fun p => p.Spares f where
  done result _ := (compositional_maintains _).done result
  log entry _ _ := maintains_log entry
  bind hp hf on := (hp on).bind fun a _ => hf a on
  attempt hp on := (hp on).attempt

/-- A procedure that never writes to the register of a flag spares it. -/
theorem spares_of_writesOnly {p : Procedure α}
    (h : p.WritesOnly fun address _ => address ≠ f.address) : p.Spares f := by
  refine fun on => maintains_of_writesOnly h fun r address value hne hr => ?_
  rw [RegisterFile.flag, RegisterFile.get_set_of_ne _ hne]
  exact hr

/-- A flag spares every other flag, in the same register too. -/
theorem spares_put {g : Flag} (hs : (Site.at g.address).isStored) (h : f.Apart g) (on : Bool) :
    (put g on).Spares f := by
  intro before r hr
  have hput : (r.put g on).flag f = before := (RegisterFile.flag_put_of_apart h r on).trans hr
  exact upholds_put hs hr hput hput

end Procedure

/-! ## The two sides -/

namespace Sampling

/-- What can drive the input of the ADC. -/
inductive Side where
  /-- The external pins. -/
  | pins
  /-- The output of RXVGA2. -/
  | rxvga2
deriving Repr, DecidableEq

namespace Side

/-- The flag of a side that drives the ADC. -/
def flag : Side → Flag
  | .pins => Clock.externalAdc
  | .rxvga2 => Rx.vga2Enable

theorem stored (side : Side) : (Site.at side.flag.address).isStored := by
  cases side <;> rfl

end Side

/-- Both sides drive the ADC. -/
def Clash (r : RegisterFile) : Prop :=
  r.flag Clock.externalAdc = true ∧ r.flag Rx.vga2Enable = true

instance (r : RegisterFile) : Decidable (Clash r) :=
  inferInstanceAs (Decidable (_ ∧ _))

variable {α : Type} {r : RegisterFile} {p : Procedure α}

/-- With one side off there is no clash. -/
theorem not_clash_of_off {side : Side} (h : r.flag side.flag = false) : ¬ Clash r := by
  rintro ⟨hpins, hrxvga2⟩
  cases side with
  | pins => exact Bool.false_ne_true (h.symm.trans hpins)
  | rxvga2 => exact Bool.false_ne_true (h.symm.trans hrxvga2)

/-- Without a clash one of the sides is off. -/
theorem exists_off_of_not_clash (h : ¬ Clash r) : ∃ side : Side, r.flag side.flag = false := by
  by_cases hpins : r.flag Clock.externalAdc = true
  · exact ⟨.rxvga2, Bool.eq_false_iff.2 fun hrxvga2 => h ⟨hpins, hrxvga2⟩⟩
  · exact ⟨.pins, Bool.eq_false_iff.2 hpins⟩

/-- What spares a side that is off keeps the ADC from a clash. -/
theorem upholds_of_spares {side : Side} (hp : p.Spares side.flag)
    (hoff : r.flag side.flag = false) :
    p.Upholds (fun r => ¬ Clash r) (fun _ r => ¬ Clash r) r :=
  (hp false r hoff).mono (fun _ => not_clash_of_off) fun _ _ => not_clash_of_off

/-! ## Selecting an input -/

/-- A side can be switched off at any time. -/
theorem maintains_switchOff (side : Side) : (put side.flag false).Maintains fun r => ¬ Clash r := by
  intro r hr
  have hoff : ¬ Clash (r.put side.flag false) :=
    not_clash_of_off (RegisterFile.flag_put_self r side.flag false)
  exact upholds_put side.stored hr hoff hoff

/-- One side is switched off before the other one is switched on. -/
theorem maintains_switchOver {off on : Side} (h : off ≠ on) :
    (do put off.flag false; put on.flag true).Maintains fun r => ¬ Clash r := by
  intro r hr
  have hapart : off.flag.Apart on.flag := by
    revert h
    cases off <;> cases on <;> decide
  have hfirst : (put off.flag false).Upholds (fun r => ¬ Clash r)
      (fun result r' => ¬ Clash r' ∧ ∀ u, result = .ok u → r'.flag off.flag = false) r := by
    have hoff : (r.put off.flag false).flag off.flag = false := RegisterFile.flag_put_self ..
    exact upholds_put off.stored ⟨hr, nofun⟩ (not_clash_of_off hoff)
      ⟨not_clash_of_off hoff, fun _ _ => hoff⟩
  refine hfirst.bind (fun u r' _ h' => ?_) fun _ _ h' => h'.1
  exact upholds_of_spares (spares_put on.stored hapart true) (h'.2 u rfl)

/-- Selecting an input causes no clash at any moment, whatever is refused and whichever input it is.
-/
theorem maintains_select (sampling : Sampling) :
    (select sampling).Maintains fun r => ¬ Clash r := by
  cases sampling with
  | internal => exact maintains_switchOver (show Side.pins ≠ Side.rxvga2 by decide)
  | external => exact maintains_switchOver (show Side.rxvga2 ≠ Side.pins by decide)
  | unknown => exact maintains_fail _

/-! ## What leaves both sides alone -/

/-- The registers with the flags of the sides. -/
def inputRegisters : List Address := [clockEnable, rxvga2Control]

/-- What writes to neither of the two registers spares both sides. -/
theorem spares_of_elsewhere (side : Side)
    (h : p.WritesOnly fun address _ => address ∉ inputRegisters) : p.Spares side.flag := by
  have hmem : side.flag.address ∈ inputRegisters := by cases side <;> decide
  exact spares_of_writesOnly (h.mono fun _ _ hout heq => hout (heq ▸ hmem))

variable (side : Side)

theorem spares_write {address : Address} (h : address ∉ inputRegisters) (value : Byte) :
    (writeByte address value).Spares side.flag :=
  spares_of_elsewhere side ((writesOnly_writeByte _ _).2 h)

theorem spares_assign {w : Nat} {field : BitField w} (h : field.address ∉ inputRegisters)
    (value : BitVec w) : (assign field value).Spares side.flag :=
  spares_of_elsewhere side ((writesOnly_assign _ _).2 fun _ => h)

theorem spares_put_elsewhere {flag : Flag} (h : flag.address ∉ inputRegisters) (on : Bool) :
    (put flag on).Spares side.flag :=
  spares_assign side h _

/-- Writing the clocks with the bit of the pins as it is changes neither side. -/
theorem flag_set_clocks {on : Bool} {clocks : Byte}
    (h : side = .pins → Clock.externalAdc.isSet clocks = on) (hr : r.flag side.flag = on) :
    (r.set clockEnable clocks).flag side.flag = on := by
  cases side with
  | pins =>
    rw [← h rfl]
    exact congrArg Clock.externalAdc.isSet (RegisterFile.get_set_self r clockEnable clocks)
  | rxvga2 =>
    have hne : clockEnable ≠ rxvga2Control := by decide
    exact (congrArg Rx.vga2Enable.isSet (RegisterFile.get_set_of_ne r hne clocks)).trans hr

/-- Tuning writes to the register of the clocks, but only to the two bits of the modulators in it.
-/
theorem spares_setFrequency (h : Half) (request : Nat) :
    (Synthesizer.setFrequency h request).Spares side.flag := by
  refine (compositional_spares _).setFrequency (fun on before => ?_) ?_
  · refine maintains_modify rfl fun r hr => flag_set_clocks side ?_ hr
    rintro rfl
    rw [BitField.isSet_put_of_disjoint (by decide), BitField.isSet_put_of_disjoint (by decide)]
    exact hr
  · have hprogram : (Synthesizer.program h (clampHz request)
        (Divider.ofHz (clampHz request))).Careful (fun address _ => address ∉ inputRegisters)
          fun _ => False :=
      Synthesizer.careful_program (by cases h <;> decide) _ _
    exact spares_of_elsewhere side hprogram.writesOnly

/-! ## Calibrations -/

open Calibration

/-- Loading values switches the calibration clocks, which lie next to the bit of the pins. -/
theorem spares_loadValues (values : Values) : (loadValues values).Spares side.flag := by
  refine (compositional_spares _).loadValues (fun b on => ?_) (fun slot value => ?_) values
  · exact spares_put (by cases b <;> rfl) (by cases side <;> cases b <;> decide) on
  · have hout (b : Block) : (Dc.submodule b).address ∉ inputRegisters ∧
        (Dc.count b).address ∉ inputRegisters := by
      cases b <;> decide
    have hslot : (loadSlot slot value).Careful (fun address _ => address ∉ inputRegisters)
        fun _ => False :=
      careful_loadSlot (fun b _ => (hout b).1) (fun b _ => (hout b).2) slot value
    exact spares_of_elsewhere side hslot.writesOnly

/-- Gains are set in other registers. -/
theorem spares_setDb (stage : DbStage) (request : Int) :
    (Gain.setDb stage request).Spares side.flag := by
  have hout : stage.address ∉ inputRegisters := by cases stage <;> decide
  have hset : (Gain.setDb stage request).Careful (fun address _ => address ∉ inputRegisters)
      fun _ => False := Gain.careful_setDb (fun _ => hout) request
  exact spares_of_elsewhere side hset.writesOnly

theorem spares_setLna (gain : Amplifier.LnaGain) : (Gain.setLna gain).Spares side.flag := by
  cases gain with
  | unknown => exact (compositional_spares _).done _
  | bypass | mid | max => exact spares_assign side (by decide) _

/-- The decoding of RXVGA2 is switched next to its enable. -/
theorem spares_decode (on : Bool) : (put Rx.vga2Decode on).Spares side.flag :=
  spares_put rfl (by cases side <;> decide) on

/-- The stages of RXVGA2 are routed by a bit next to its enable. -/
theorem spares_routeStages (b : Block) (submodule : Nat) :
    (routeStages b submodule).Spares side.flag := by
  have hstages (value : Byte) : (writeByte rxvga2Stages value).Spares side.flag :=
    spares_write side (by decide) value
  unfold routeStages
  split
  · exact (compositional_spares _).bind (spares_decode side _) fun _ => hstages _
  · exact (compositional_spares _).bind (spares_decode side _) fun _ => hstages _
  · exact hstages _
  all_goals exact (compositional_spares _).done _

/-- Adopting a result writes to the registers of the two filters at most. -/
theorem spares_adopt (b : Block) (value : BitVec 6) : (adopt b value).Spares side.flag := by
  have hM := compositional_spares side.flag
  cases b with
  | lpfTuning =>
    exact hM.bind (spares_assign side (by decide) _) fun _ => spares_assign side (by decide) _
  | txLpf | rxLpf | rxvga2 => exact hM.done _

/-- A calibration of one submodule writes to the registers of its block only. -/
theorem spares_settle (b : Block) (submodule : Nat) (count : BitVec 6) :
    (settle b submodule count).Spares side.flag := by
  have hsettle : (settle b submodule count).Careful (fun address _ => address ∉ inputRegisters)
      fun _ => False :=
    careful_settle (fun _ => by cases b <;> decide) (fun _ => by cases b <;> decide) _ _
  exact spares_of_elsewhere side hsettle.writesOnly

/-- No number of attempts touches the sides. -/
theorem spares_converge (b : Block) (gains : Gains) : (converge b gains).Spares side.flag :=
  (compositional_spares _).converge (spares_routeStages side b) (spares_settle side b)
    (spares_adopt side b) (fun _ a _ => spares_setDb side a.stage a.gain) gains

theorem spares_powerComparators (b : Block) : (powerComparators b).Spares side.flag := by
  have hM := compositional_spares side.flag
  cases b with
  | lpfTuning => exact hM.done _
  | txLpf =>
    refine hM.bind (spares_put_elsewhere side (by decide) _) fun _ => ?_
    exact spares_put_elsewhere side (by decide) _
  | rxLpf => exact spares_put_elsewhere side (by decide) _
  | rxvga2 => exact spares_assign side (by decide) _

/-- Isolating the front end touches neither side. -/
theorem spares_isolateFrontEnd (found : FrontEnd) :
    (isolateFrontEnd found).Spares side.flag := by
  have hM := compositional_spares side.flag
  refine hM.bind (spares_write side (by decide) _) fun _ => ?_
  refine hM.bind (spares_write side (by decide) _) fun _ => ?_
  refine hM.bind (spares_setLna side _) fun _ => ?_
  refine hM.bind (spares_setDb side _ _) fun _ => ?_
  exact hM.bind (spares_setDb side _ _) fun _ => hM.done _

/-- Undoing the set-up of a block touches neither side. -/
theorem spares_tearDown (b : Block) : (tearDown b).Spares side.flag := by
  have hM := compositional_spares side.flag
  cases b with
  | lpfTuning => exact hM.done _
  | txLpf =>
    refine hM.forceAll ?_
    simp only [List.forall_mem_cons]
    exact ⟨spares_put_elsewhere side (by decide) _, spares_put_elsewhere side (by decide) _,
      by simp⟩
  | rxLpf => exact spares_put_elsewhere side (by decide) _
  | rxvga2 =>
    refine hM.forceAll ?_
    simp only [List.forall_mem_cons]
    exact ⟨spares_write side (by decide) _, spares_decode side _, spares_assign side (by decide) _,
      by simp⟩

/-- Giving the front end back touches neither side. -/
theorem spares_restoration (found : FrontEnd) :
    ∀ p ∈ found.restoration, p.Spares side.flag := by
  have hM := compositional_spares side.flag
  simp only [FrontEnd.restoration, List.forall_mem_cons]
  exact ⟨spares_write side (by decide) _, spares_write side (by decide) _,
    spares_setLna side _, hM.map (spares_setDb side _ _) _, hM.map (spares_setDb side _ _) _,
    by simp⟩

/-- The backup of the clocks has the bit of the pins as it is. -/
theorem upholds_takeBackup {on : Bool} (b : Block) (hr : r.flag side.flag = on) :
    (takeBackup b).Upholds (fun r => r.flag side.flag = on)
      (fun result r' => r'.flag side.flag = on ∧ ∀ backup, result = .ok backup → side = .pins →
        Clock.externalAdc.isSet backup.clocks = on) r := by
  have hfrontEnd : readFrontEnd.Careful (fun address _ => address ∉ inputRegisters)
      fun _ => True := careful_readFrontEnd trivial
  have hclocks : side = .pins → Clock.externalAdc.isSet (r.get clockEnable) = on := by
    rintro rfl
    exact hr
  apply upholds_readByte_bind rfl ⟨hr, nofun⟩
  split
  · refine (spares_of_elsewhere side hfrontEnd.writesOnly on r hr).bind (fun found r' _ h => ?_)
      fun _ _ h => ⟨h, nofun⟩
    refine ⟨h, ?_⟩
    rintro backup ⟨⟩
    exact hclocks
  · refine ⟨hr, ?_⟩
    rintro backup ⟨⟩
    exact hclocks

/-- The clocks are written as a whole with what has been read at the start, and nothing has changed
the bit of the pins since then. -/
theorem spares_calibrate (b : Block) : (calibrate b).Spares side.flag := by
  intro on r hr
  have hM := compositional_maintains fun r => r.flag side.flag = on
  have hclocks {clocks : Byte} (h : side = .pins → Clock.externalAdc.isSet clocks = on) :
      (writeByte clockEnable clocks).Maintains fun r => r.flag side.flag = on :=
    fun r hr => upholds_writeByte hr (flag_set_clocks side h hr) (flag_set_clocks side h hr)
  refine (upholds_takeBackup side b hr).bind (fun backup r' _ h => ?_) fun _ _ h => h.1
  have hfound := h.2 backup rfl
  have hon : side = .pins →
      Clock.externalAdc.isSet ((Clock.calibration b).put backup.clocks true) = on := by
    have hdisjoint : Clock.externalAdc.Disjoint (Clock.calibration b) := by cases b <;> decide
    rw [BitField.isSet_put_of_disjoint hdisjoint]
    exact hfound
  have hsetUp : (setUp b backup).Maintains fun r => r.flag side.flag = on := by
    refine hM.bind (hclocks hon) fun _ => hM.bind (spares_powerComparators side b on) fun _ => ?_
    split
    · exact spares_isolateFrontEnd side _ on
    · exact hM.done _
  have hrestore : (restore backup).Maintains fun r => r.flag side.flag = on := by
    refine hM.forceAll (List.forall_mem_cons.2 ⟨hclocks hfound, ?_⟩)
    split
    · exact fun p hp => spares_restoration side _ p hp on
    · simp
  refine hM.forceAll ?_ r' h.1
  simp only [List.forall_mem_cons]
  exact ⟨hM.bind hsetUp fun _ => spares_converge side b .highest on, spares_tearDown side b on,
    hrestore, by simp⟩

/-! ## Changing the loopback -/

open Loopback

/-- What a mode sets up before it turns RXVGA2 on. -/
def leadIn (mode : Mode) (filter : LowPass.Mode) : Procedure Unit :=
  match mode with
  | .baseband _ .rxVga2 => pure ()
  | .baseband _ .rxLpf => do
    Power.enableRxvga1 false
    reviveFilter filter
  | .rf _ => do
    Power.enableLna false
    Power.enableRxvga1 true
    reviveFilter filter
  | .none => do
    Power.enableRxvga1 true
    reviveFilter filter

/-- What a mode sets up in the receive half after RXVGA2 has been turned on. -/
def followUp (mode : Mode) : Procedure Unit :=
  match mode with
  | .baseband _ .rxVga2 => LowPass.setMode .rx .disabled
  | .baseband _ .rxLpf => pure ()
  | .rf path => do
    assign (Pll.selOut .rx) path.code
    Amplifier.selectLna path.lna
    Power.enableLoopbackSwitch true
  | .none => do
    Power.enableLoopbackSwitch false
    Power.enableLna true
    restoreBand .rx

/-- A change of the loopback until it turns RXVGA2 on. -/
def opening (mode : Mode) : Procedure Unit := do
  log (.settingLoopback mode)
  Amplifier.selectPowerAmp .none
  Amplifier.selectLna .none
  closeSwitches .none
  let filter ← LowPass.mode .rx
  leadIn mode filter

/-- A change of the loopback from there on. -/
def closing (mode : Mode) : Procedure Unit := do
  followUp mode
  prepareTx mode
  closeSwitches mode

/-- Every mode turns RXVGA2 on once. -/
theorem change_eq_turning_on (mode : Mode) :
    change mode = (do opening mode; Power.enableRxvga2 true; closing mode) := by
  rcases mode with _ | ⟨_, _ | _⟩ | path <;>
    simp only [change, opening, closing, prepareRx, leadIn, followUp, LawfulMonad.bind_assoc,
      LawfulMonad.pure_bind]

theorem spares_enableLna (on : Bool) : (Power.enableLna on).Spares side.flag :=
  (compositional_spares _).bind (spares_put_elsewhere side (by decide) _) fun _ =>
    spares_put_elsewhere side (by decide) _

theorem spares_selectLna (lna : Amplifier.Lna) : (Amplifier.selectLna lna).Spares side.flag :=
  spares_assign side (by decide) _

theorem spares_selectPowerAmp (pa : Amplifier.PowerAmp) :
    (Amplifier.selectPowerAmp pa).Spares side.flag :=
  spares_of_elsewhere side ((writesOnly_modify _ _).2 fun _ => by decide)

theorem spares_setMode (mode : LowPass.Mode) : (LowPass.setMode .rx mode).Spares side.flag := by
  have hout : (Lpf.enable .rx).address ∉ inputRegisters ∧
      (Lpf.bypass .rx).address ∉ inputRegisters := by
    decide
  apply spares_of_elsewhere
  simp [LowPass.setMode, hout]

/-- A filter that is revived is switched in its own registers. -/
theorem spares_reviveFilter (found : LowPass.Mode) : (reviveFilter found).Spares side.flag := by
  unfold reviveFilter
  split
  · exact spares_setMode side .normal
  · exact (compositional_spares _).done _

theorem spares_closeSwitches (mode : Mode) : (closeSwitches mode).Spares side.flag := by
  have hsource : basebandLoop ∉ inputRegisters := by decide
  have hcontrol : loopbackControl ∉ inputRegisters := by decide
  apply spares_of_elsewhere
  simp [closeSwitches, hsource, hcontrol]

/-- Going back to the band of a frequency tunes and selects the path that belongs to it. -/
theorem spares_restoreBand (h : Half) : (restoreBand h).Spares side.flag := by
  have hM := compositional_spares side.flag
  have hread : (Synthesizer.frequencyHz h).Careful (fun address _ => address ∉ inputRegisters)
      fun _ => True := Synthesizer.careful_frequencyHz trivial (fun _ => trivial) h
  have hselect (hz : Nat) : (Synthesizer.selectBand h hz).WritesOnly
      fun address _ => address ∉ inputRegisters :=
    Synthesizer.writesOnly_selectBand fun _ => by cases h <;> decide
  refine hM.bind (spares_of_elsewhere side hread.writesOnly) fun hz => ?_
  refine hM.bind (spares_setFrequency side h hz) fun _ => ?_
  exact spares_of_elsewhere side (hselect hz)

/-- Nothing that a change of the loopback does before it turns RXVGA2 on touches either side. -/
theorem spares_opening (mode : Mode) : (opening mode).Spares side.flag := by
  have hM := compositional_spares side.flag
  have hmode : (LowPass.mode .rx).Careful (fun address _ => address ∉ inputRegisters)
      fun _ => True := LowPass.careful_mode .rx
  have hvga1 (on : Bool) : (Power.enableRxvga1 on).Spares side.flag :=
    spares_put_elsewhere side (by decide) _
  refine hM.bind (hM.log _ nofun) fun _ => hM.bind (spares_selectPowerAmp side _) fun _ => ?_
  refine hM.bind (spares_selectLna side _) fun _ => ?_
  refine hM.bind (spares_closeSwitches side _) fun _ => ?_
  refine hM.bind (spares_of_elsewhere side hmode.writesOnly) fun filter => ?_
  match mode with
  | .baseband _ .rxVga2 => exact hM.done _
  | .baseband _ .rxLpf | .none =>
    exact hM.bind (hvga1 _) fun _ => spares_reviveFilter side filter
  | .rf _ =>
    refine hM.bind (spares_enableLna side false) fun _ => hM.bind (hvga1 true) fun _ => ?_
    exact spares_reviveFilter side filter

/-- Nor does anything that it does after that. -/
theorem spares_closing (mode : Mode) : (closing mode).Spares side.flag := by
  have hM := compositional_spares side.flag
  have hswitch (on : Bool) : (Power.enableLoopbackSwitch on).Spares side.flag :=
    spares_put_elsewhere side (by decide) on
  have hbuffer (code : BitVec 2) : (assign (Pll.selOut .rx) code).Spares side.flag :=
    spares_assign side (by decide) code
  have hfollowUp : (followUp mode).Spares side.flag := by
    match mode with
    | .baseband _ .rxVga2 => exact spares_setMode side .disabled
    | .baseband _ .rxLpf => exact hM.done _
    | .rf path =>
      refine hM.bind (hbuffer path.code) fun _ => ?_
      exact hM.bind (spares_selectLna side path.lna) fun _ => hswitch true
    | .none =>
      refine hM.bind (hswitch false) fun _ => hM.bind (spares_enableLna side true) fun _ => ?_
      exact spares_restoreBand side .rx
  have htx : (prepareTx mode).Spares side.flag := by
    match mode with
    | .baseband _ _ => exact hM.done _
    | .rf _ => exact spares_selectPowerAmp side .aux
    | .none => exact spares_restoreBand side .tx
  exact hM.bind hfollowUp fun _ => hM.bind htx fun _ => spares_closeSwitches side mode

/-- A change of the loopback takes no notice of the pins. -/
theorem spares_change (mode : Mode) : (change mode).Spares Clock.externalAdc := by
  have hM := compositional_spares Clock.externalAdc
  rw [change_eq_turning_on]
  refine hM.bind (spares_opening .pins mode) fun _ => ?_
  refine hM.bind (spares_put rfl (by decide) true) fun _ => ?_
  exact spares_closing .pins mode

/-- A change of the loopback that ends well has turned RXVGA2 on. -/
theorem upholds_change (mode : Mode) (r : RegisterFile) :
    (change mode).Upholds (fun _ => True)
      (fun result r' => ∀ u, result = .ok u → r'.flag Rx.vga2Enable = true) r := by
  rw [change_eq_turning_on]
  refine (upholds_true (opening mode) r).bind (fun _ r _ _ => ?_) nofun
  have hon : (Power.enableRxvga2 true).Upholds (fun _ => True)
      (fun result r' => ∀ u, result = .ok u → r'.flag Rx.vga2Enable = true) r :=
    upholds_put rfl nofun trivial fun _ _ => RegisterFile.flag_put_self _ _ _
  refine hon.bind (fun u r' _ h => ?_) nofun
  exact (spares_closing .rxvga2 mode true r' (h u rfl)).mono (fun _ _ => trivial) fun _ _ h _ _ => h

/-! ## Every command -/

/-- Whether a command switches a side. Raw commands are left out. -/
def Side.switchedBy : Side → Command → Bool
  | _, .setSampling _ => true
  | .rxvga2, .enableRxvga2 _ | .rxvga2, .setLoopback _ => true
  | _, _ => false

variable {side} {command : Command}

/-- A command whose list of registers names neither of the two spares both sides. -/
theorem spares_of_writes (h : ∀ address ∈ command.writes, address ∉ inputRegisters) :
    command.procedure.Spares side.flag :=
  spares_of_elsewhere side (command.writesOnly_writes.mono fun address _ hmem => h address hmem)

/-- A command leaves a side alone that it does not switch. -/
theorem spares_command (htame : command.isRaw = false) (h : side.switchedBy command = false) :
    command.procedure.Spares side.flag := by
  have hM := compositional_spares side.flag
  cases command with
  | writeRaw _ _ | setBits _ _ | clearBits _ _ => cases htame
  | setSampling _ => cases side <;> cases h
  | enableRxvga2 on =>
    cases side with
    | pins => exact hM.acknowledge (spares_put rfl (by decide) on)
    | rxvga2 => cases h
  | setLoopback mode =>
    cases side with
    | pins => exact hM.acknowledge (spares_change mode)
    | rxvga2 => cases h
  | setFrequency half hz => exact hM.map (spares_setFrequency side half hz) _
  | calibrate block => exact hM.acknowledge (spares_calibrate side block)
  | loadCalibration values => exact hM.acknowledge (spares_loadValues side values)
  -- the others have neither register in their lists
  | setGain request =>
    refine spares_of_writes ?_
    rcases request with _ | ⟨_ | _⟩ <;> dsimp only [Command.writes] <;> decide
  | enableFrontEnd half on | enablePll half on | enableDither half _ on | enableFilter half on
  | setFilterMode half mode | setBandwidth half width | setBandwidthHz half hz
  | selectBand half hz =>
    refine spares_of_writes ?_
    cases half <;> dsimp only [Command.writes] <;> decide
  | _ =>
    refine spares_of_writes ?_
    dsimp only [Command.writes]
    decide

end Sampling

/-- Whether a command turns RXVGA2 on, whatever drives the ADC. -/
def Command.turnsOnRxvga2 : Command → Bool
  | .enableRxvga2 on => on
  | .setLoopback _ => true
  | _ => false

namespace Sampling

variable {r : RegisterFile} {command : Command}

/-- There is no clash at any moment of a command, unless it turns RXVGA2 on while the pins drive the
ADC. -/
theorem upholds_command (htame : command.isRaw = false)
    (hguard : command.turnsOnRxvga2 → r.flag Clock.externalAdc = false) (hr : ¬ Clash r) :
    command.procedure.Upholds (fun r => ¬ Clash r) (fun _ r => ¬ Clash r) r := by
  cases command with
  | setSampling sampling => exact (maintains_select sampling).acknowledge r hr
  | enableRxvga2 on =>
    cases on with
    | false => exact (maintains_switchOff .rxvga2).acknowledge r hr
    | true =>
      have hspares : (Command.enableRxvga2 true).procedure.Spares Side.pins.flag :=
        spares_command rfl rfl
      exact upholds_of_spares hspares (hguard rfl)
  | setLoopback mode =>
    have hspares : (Command.setLoopback mode).procedure.Spares Side.pins.flag :=
      spares_command rfl rfl
    exact upholds_of_spares hspares (hguard rfl)
  | _ =>
    obtain ⟨side, hoff⟩ := exists_off_of_not_clash hr
    exact upholds_of_spares (spares_command htame (by cases side <;> rfl)) hoff

end Sampling

/-! ## Sessions -/

namespace Chip

open Sampling

/-- A chip that commands lead to from a given one, none of them raw. RXVGA2 is turned on only while
the pins do not drive the ADC, unless it is done by selecting the input. Any accesses of a command
may be refused, and between two commands anything but the registers may change. -/
inductive Steered (start : Chip) : Chip → Prop where
  | nothing : Steered start start
  | changed {before c : Chip} (steered : Steered start before)
    (registers : c.registers = before.registers) : Steered start c
  | command {c : Chip} {command : Command} (steered : Steered start c)
    (tame : command.isRaw = false)
    (guarded : command.turnsOnRxvga2 → c.registers.flag Clock.externalAdc = false)
    (refused : Nat → Bool) (n : Nat) :
    Steered start (command.procedure.run (bus refused) (n, c)).state.2

variable {start c : Chip}

/-- Commands that turn RXVGA2 on only while the pins are off lead to no clash. -/
theorem Steered.not_clash (h : Steered start c) (hstart : ¬ Clash start.registers) :
    ¬ Clash c.registers := by
  induction h with
  | nothing => exact hstart
  | changed steered registers ih => exact registers ▸ ih
  | command steered tame guarded refused n ih =>
    exact ((upholds_command tame guarded ih).run (s := (n, _)) ih).1

end Chip

namespace Sampling

open Chip

/-- In a clash neither of the inputs is shown as selected. -/
theorem shows_selected_of_clash {c : Chip} (h : Clash c.registers) :
    c.shows selected = .ok .unknown := by
  apply shows_of_wp
  rw [wp_selected, h.1, h.2]
  rfl

/-- Both sides drive the ADC only after RXVGA2 has been turned on while the pins drove it. A session
without that has no clash at any moment, whatever is refused in it. A change of the loopback turns
RXVGA2 on without regard to the pins: whenever it ends well while they drive the ADC, it ends in a
clash. -/
theorem clash_only_by_turning_on {start c : Chip} (h : Steered start c)
    (hstart : ¬ Clash start.registers) :
    (∀ command : Command, command.isRaw = false →
      (command.turnsOnRxvga2 → c.registers.flag Clock.externalAdc = false) →
      ∀ (refused : Nat → Bool) (n : Nat) (pre rest : List Event),
        (command.procedure.run (bus refused) (n, c)).events = pre ++ rest →
          ¬ Clash (c.registers.after pre)) ∧
    ∀ (mode : Loopback.Mode) (refused : Nat → Bool) (n : Nat),
      let o := (Command.setLoopback mode).procedure.run (bus refused) (n, c)
      c.registers.flag Clock.externalAdc = true → o.result.isOk → Clash o.state.2.registers := by
  have hc : ¬ Clash c.registers := h.not_clash hstart
  constructor
  · intro command htame hguard refused n pre rest hpre
    exact ((upholds_command htame hguard hc).run (s := (n, c)) hc).2 pre rest hpre
  · intro mode refused n o hpins hok
    have hspared : (Command.setLoopback mode).procedure.Spares Side.pins.flag :=
      spares_command rfl rfl
    have hafter : o.state.2.registers.flag Clock.externalAdc = true :=
      ((hspared true c.registers hpins).run (s := (n, c)) hpins).1
    have hon : (Command.setLoopback mode).procedure.Upholds (fun _ => True)
        (fun result r' => result.isOk → r'.flag Rx.vga2Enable = true) c.registers := by
      refine (upholds_change mode c.registers).bind (fun u _ _ h _ => h u rfl) ?_
      rintro fault r' - ⟨⟩
    exact ⟨hafter, (hon.run (s := (n, c)) trivial).1 hok⟩

/-- With the pins selected there is no clash at any moment of a calibration of RXVGA2 that has its
fortieth access refused, and one after a change to a radio frequency loopback. -/
theorem clash_only_by_turning_on_external :
    let c := ((Command.setSampling .external).procedure.run (bus fun _ => false)
      (0, initial)).state.2
    let calibrated := (Command.calibrate .rxvga2).procedure.run (bus (· == 39)) (0, c)
    let looped := (Command.setLoopback (.rf .lna1)).procedure.run (bus fun _ => false) (0, c)
    calibrated.result.isOk = false ∧
      (∀ pre rest, calibrated.events = pre ++ rest → ¬ Clash (c.registers.after pre)) ∧
      looped.result.isOk ∧ Clash looped.state.2.registers := by
  intro c calibrated looped
  have hguard : (Command.setSampling .external).turnsOnRxvga2 →
      initial.registers.flag Clock.externalAdc = false := nofun
  have hsteered : Steered initial c := .command .nothing rfl hguard _ 0
  have hstart : ¬ Clash initial.registers := by decide
  have hfailed : calibrated.result.isOk = false := by decide +kernel
  have hok : looped.result.isOk := by decide +kernel
  obtain ⟨hapart, hclash⟩ := clash_only_by_turning_on hsteered hstart
  exact ⟨hfailed, hapart (.calibrate .rxvga2) rfl nofun _ 0, hok,
    hclash (.rf .lna1) _ 0 (by decide) hok⟩

/-- Selecting the pins and engaging a baseband loopback after that, with every access accepted,
makes both sides drive the ADC, and the input reads as unknown. -/
theorem clash_by_loopback :
    let selected := (Command.setSampling .external).procedure.run transport initial
    let looped := (Command.setLoopback (.baseband .txLpf .rxVga2)).procedure.run transport
      selected.state
    ¬ Clash initial.registers ∧ selected.result.isOk ∧ looped.result.isOk ∧
      Clash looped.state.registers ∧ looped.state.shows Sampling.selected = .ok .unknown := by
  intro selected looped
  have hclash : Clash looped.state.registers := by decide +kernel
  exact ⟨by decide, by decide +kernel, by decide +kernel, hclash, shows_selected_of_clash hclash⟩

end Sampling

end Transceiver
