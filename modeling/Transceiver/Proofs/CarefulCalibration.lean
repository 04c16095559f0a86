import Transceiver.Calibration
import Transceiver.Proofs.Careful

/-!
# Careful calibration

The parts of a DC calibration are careful, each on its own: reading what the calibration disturbs,
setting the chip up, every attempt however often the gains are adjusted, and the loop that they all
run. A loop that does not finish is no fault, and the attempts end in an alarm.
-/

namespace Transceiver

open Procedure Register

variable {W : Address → Byte → Prop} {silent : Fault → Prop}

namespace Calibration

/-! ## Values -/

theorem careful_readSlot {slot : Slot}
    (hW : ∀ value, W (Dc.submodule slot.block).address value) :
    (readSlot slot).Careful W silent :=
  (careful_writeByte (hW _)).bind fun _ _ => careful_load _

section Loading

variable (hctl : ∀ (b : Block) (value : Byte), W (Dc.submodule b).address value)

include hctl

/-- Reading the values writes the control registers, to address the submodules. -/
theorem careful_readValues : readValues.Careful W silent :=
  (careful_mapM (fun _ => careful_readSlot (hctl _)) _).bind fun _ _ => careful_pure _

variable (hcount : ∀ (b : Block) (value : Byte), W (Dc.count b).address value)

include hcount

/-- A value is loaded through the control and the count register of its block. -/
theorem careful_loadSlot (slot : Slot) (value : Byte) : (loadSlot slot value).Careful W silent := by
  refine (careful_writeByte (hctl _ _)).bind fun _ _ => ?_
  refine (careful_writeByte (hcount _ _)).bind fun _ _ => ?_
  refine (careful_writeByte (hctl _ _)).bind fun _ _ => ?_
  refine (careful_writeByte (hctl _ _)).bind fun _ _ => ?_
  refine (careful_readByte _).bind fun _ _ => ?_
  exact careful_pure ()

variable (hclock : ∀ value, W clockEnable value)

include hclock

/-- Loading the values of a block switches the clock of the block too. -/
theorem careful_loadBlock (b : Block) (values : List (Slot × Byte)) :
    (loadBlock b values).Careful W silent := by
  have hswitch (on : Bool) : (put (Clock.calibration b) on).Careful W silent := by
    apply careful_put
    cases b <;> exact fun _ => hclock _
  cases values with
  | nil => exact careful_pure ()
  | cons first rest =>
    refine (hswitch true).bind fun _ _ => ?_
    refine (careful_forM (fun _ => careful_loadSlot hctl hcount _ _) _).bind fun _ _ => ?_
    exact hswitch false

/-- Values that fit are loaded without a fault of their own. -/
theorem careful_loadValues {values : Values} (h : values.fit) :
    (loadValues values).Careful W silent := by
  rw [loadValues, if_pos h]
  exact careful_forM (fun b => careful_loadBlock hctl hcount hclock b _) _

end Loading

/-! ## The loop -/

/-- To run out of polls is no fault. -/
theorem careful_awaitDone (b : Block) (budget : Nat) : (awaitDone b budget).Careful W silent := by
  induction budget with
  | zero => exact careful_pure _
  | succ budget ih =>
    refine (careful_readByte _).bind fun status _ => ?_
    split
    · exact (careful_wait _).bind fun _ _ => ih
    · exact careful_pure _

section Block

variable {b : Block} (hctl : ∀ value, W (Dc.submodule b).address value)
  (hcount : ∀ value, W (Dc.count b).address value)

include hctl hcount

/-- A loop writes the control and the count register of its block. -/
theorem careful_settle (submodule : Nat) (count : BitVec 6) :
    (settle b submodule count).Careful W silent := by
  refine (careful_log rfl).bind fun _ _ => ?_
  refine (careful_readByte _).bind fun old _ => ?_
  refine (careful_writeByte (hctl _)).bind fun _ _ => ?_
  refine (careful_writeByte (hcount _)).bind fun _ _ => ?_
  refine (careful_writeByte (hctl _)).bind fun _ _ => ?_
  refine (careful_writeByte (hctl _)).bind fun _ _ => ?_
  refine (careful_writeByte (hctl _)).bind fun _ _ => ?_
  refine (careful_writeByte (hctl _)).bind fun _ _ => ?_
  refine (careful_awaitDone b _).bind fun finished _ => ?_
  split
  · refine (careful_load _).bind fun _ _ => ?_
    refine (careful_log rfl).bind fun _ _ => ?_
    exact careful_pure _
  · exact (careful_log rfl).bind fun _ _ => careful_pure _

end Block

/-! ## Calibrating -/

/-- The registers that the calibration of a block writes, the LNA control apart. -/
def Block.disturbed (b : Block) : List Address := [
  clockEnable, txDac, txLpfComparator, rxLpfComparator, rxvga2Comparator, rxInput,
  Register.rxTermination, rxvga1Gain, rxvga2Gain, rxvga2Control, rxvga2Stages,
  (Lpf.dcLevel .tx).address, (Lpf.dcLevel .rx).address, (Dc.count b).address,
  (Dc.submodule b).address]

/-- The calibration of a block may write what it has to: anything to the registers that it
disturbs, and to the LNA control a gain mode that is a setting. -/
structure Block.Allows (b : Block) (W : Address → Byte → Prop) : Prop where
  disturbed : ∀ address ∈ b.disturbed, ∀ value, W address value
  lnaGain : ∀ gain : Amplifier.LnaGain, gain ≠ .unknown →
    ∀ old, W lnaControl (Rx.lnaGain.set old gain.bits)

/-- Where everything may be written, a calibration may write what it has to. -/
theorem Block.Allows.of_all {b : Block} (h : ∀ address value, W address value) : b.Allows W :=
  ⟨fun address _ => h address, fun _ _ _ => h _ _⟩

section Calibrating

variable {b : Block} (hW : b.Allows W)

include hW

theorem Block.Allows.control (value : Byte) : W (Dc.submodule b).address value :=
  hW.disturbed _ (by simp [Block.disturbed]) value

theorem Block.Allows.count (value : Byte) : W (Dc.count b).address value :=
  hW.disturbed _ (by simp [Block.disturbed]) value

theorem careful_putDisturbed {flag : Flag} (h : flag.address ∈ b.disturbed) (on : Bool) :
    (put flag on).Careful W silent :=
  careful_put fun _ => hW.disturbed _ h _

theorem careful_writeDisturbed {address : Address} (h : address ∈ b.disturbed) (value : Byte) :
    (writeByte address value).Careful W silent :=
  careful_writeByte (hW.disturbed _ h value)

/-- The submodules of the block have a routing each. A further one would be a fault. -/
theorem careful_routeStages {submodule : Nat} (h : submodule < b.submodules) :
    (routeStages b submodule).Careful W silent := by
  have hstages (value : Byte) : (writeByte rxvga2Stages value).Careful W silent :=
    careful_writeDisturbed hW (by simp [Block.disturbed]) value
  have hdecode (on : Bool) : (put Rx.vga2Decode on).Careful W silent :=
    careful_putDisturbed hW (by simp [Block.disturbed, Rx.vga2Decode]) on
  cases b with
  | lpfTuning | txLpf | rxLpf => exact careful_pure ()
  | rxvga2 =>
    match submodule, h with
    | 0, _ | 1, _ => exact (hdecode _).bind fun _ _ => hstages _
    | 2, _ | 4, _ => exact careful_pure ()
    | 3, _ => exact hstages _

/-- The filter tuning also writes the DC levels of both filters. -/
theorem careful_adopt (value : BitVec 6) : (adopt b value).Careful W silent := by
  have hlevel (h : Half) : (assign (Lpf.dcLevel h) value).Careful W silent :=
    careful_assign fun _ => hW.disturbed _ (by cases h <;> simp [Block.disturbed]) _
  cases b with
  | lpfTuning => exact (hlevel .tx).bind fun _ _ => hlevel .rx
  | txLpf | rxLpf | rxvga2 => exact careful_pure ()

theorem careful_adoptSecond (value : BitVec 6) : (adoptSecond b value).Careful W silent := by
  unfold adoptSecond
  split
  · exact careful_log rfl
  · exact careful_adopt hW value

/-- A loop that does not finish ends the submodule, not the calibration. -/
theorem careful_calibrateSubmodule {submodule : Nat} (h : submodule < b.submodules) :
    (calibrateSubmodule b submodule).Careful W silent := by
  refine (careful_routeStages hW h).bind fun _ _ => ?_
  refine (careful_settle hW.control hW.count submodule _).bind fun first _ => ?_
  cases first with
  | none => exact careful_pure false
  | some first =>
    dsimp only
    split
    · -- a suspect result, the loop is run once more
      refine (careful_log rfl).bind fun _ _ => ?_
      refine (careful_settle hW.control hW.count submodule 0).bind fun second _ => ?_
      cases second with
      | none => exact careful_pure false
      | some second => exact (careful_adoptSecond hW second).bind fun _ _ => careful_pure true
    · exact (careful_adopt hW first).bind fun _ _ => careful_pure true

/-- Submodules of the block are calibrated one after the other, until a loop does not finish. -/
theorem careful_calibrateAll {submodules : List Nat} (h : ∀ s ∈ submodules, s < b.submodules) :
    (calibrateAll b submodules).Careful W silent := by
  induction submodules with
  | nil => exact careful_pure true
  | cons submodule rest ih =>
    obtain ⟨hlt, hrest⟩ := List.forall_mem_cons.1 h
    refine (careful_calibrateSubmodule hW hlt).bind fun finished _ => ?_
    split
    · exact ih hrest
    · exact careful_pure false

theorem careful_attemptBlock : (attemptBlock b).Careful W silent :=
  careful_calibrateAll hW fun _ hmem => List.mem_range.1 hmem

/-- However many attempts it takes, each is careful, and so is every adjustment between them. -/
theorem careful_converge (gains : Gains) : (converge b gains).Careful W silent := by
  induction gains using b.adjustment_induction with
  | step gains ih =>
    cases hadjust : b.adjustment? gains with
    | none =>
      rw [converge_of_none hadjust]
      refine (careful_attemptBlock hW).bind fun finished _ => ?_
      split
      · exact careful_pure ()
      · exact (careful_log rfl).bind fun _ _ => careful_alarm rfl
    | some a =>
      have hstage : a.stage.address ∈ b.disturbed := by
        rcases Block.adjusted_stage hadjust with h | h <;>
          simp [h, Block.disturbed, DbStage.address]
      rw [converge_of_some hadjust]
      refine (careful_attemptBlock hW).bind fun finished _ => ?_
      split
      · exact careful_pure ()
      · refine (careful_log rfl).bind fun _ _ => ?_
        refine (Gain.careful_setDb (hW.disturbed _ hstage) a.gain).bind fun _ _ => ?_
        exact ih a hadjust

theorem careful_powerComparators : (powerComparators b).Careful W silent := by
  cases b with
  | lpfTuning => exact careful_pure ()
  | txLpf =>
    refine (careful_putDisturbed hW (by decide) _).bind fun _ _ => ?_
    exact careful_putDisturbed hW (by decide) _
  | rxLpf => exact careful_putDisturbed hW (by decide) _
  | rxvga2 => exact careful_assign fun _ => hW.disturbed _ (by decide) _

theorem careful_isolateFrontEnd (found : FrontEnd) : (isolateFrontEnd found).Careful W silent := by
  refine (careful_writeDisturbed hW (by simp [Block.disturbed]) _).bind fun _ _ => ?_
  refine (careful_writeDisturbed hW (by simp [Block.disturbed]) _).bind fun _ _ => ?_
  refine (Gain.careful_setLna (by decide) (hW.lnaGain .max (by decide))).bind fun _ _ => ?_
  refine (Gain.careful_setDb (hW.disturbed _ (by simp [Block.disturbed, DbStage.address])) _).bind
    fun _ _ => ?_
  refine (Gain.careful_setDb (hW.disturbed _ (by simp [Block.disturbed, DbStage.address])) _).bind
    fun _ _ => ?_
  exact careful_pure ()

/-- The set-up turns the gain of the LNA up to a setting. -/
theorem careful_setUp (backup : Backup) : (setUp b backup).Careful W silent := by
  refine (careful_writeDisturbed hW (by simp [Block.disturbed]) _).bind fun _ _ => ?_
  refine (careful_powerComparators hW).bind fun _ _ => ?_
  split
  · exact careful_isolateFrontEnd hW _
  · exact careful_pure ()

end Calibrating

theorem careful_readFrontEnd (hs : silent .unexpectedState) : readFrontEnd.Careful W silent := by
  refine (careful_readByte _).bind fun _ _ => ?_
  refine (careful_readByte _).bind fun _ _ => ?_
  refine (Gain.careful_readLna hs).bind fun _ _ => ?_
  refine (Gain.careful_readDb _).bind fun _ _ => ?_
  refine (Gain.careful_readDb _).bind fun _ _ => ?_
  exact careful_pure _

/-- Taking the backup can meet a gain mode of the LNA that is no setting. -/
theorem careful_takeBackup (hs : silent .unexpectedState) (b : Block) :
    (takeBackup b).Careful W silent := by
  refine (careful_readByte _).bind fun clocks _ => ?_
  split
  · exact (careful_readFrontEnd hs).bind fun _ _ => careful_pure _
  · exact careful_pure _

end Calibration

end Transceiver
