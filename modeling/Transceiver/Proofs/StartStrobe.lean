import Transceiver.Proofs.CalibrationOutcome
import Transceiver.Proofs.Chronicles
import Transceiver.Proofs.CommandWrites
import Transceiver.Proofs.FilterSwitching

/-!
# The start strobe

A loop builds the bytes for the control register of its block from what it has read there, so it
passes the start strobe on as it has found it until it raises the strobe itself. It then drops the
strobe by a write of its own, and that write can be refused.

This is the only way in which the strobe can come to stay. The control register of a block has it
put exactly if somewhere in the history the write that was to drop it has been refused, and nothing
has dropped it since.
-/

namespace Transceiver

open Procedure Register Chip

/-! ## The parts of a calibration -/

/-- No write but to plain memory, and no note that a submodule is calibrated. -/
def Event.Beside : Event → Prop
  | .write address _ _ => Site.at address = .memory
  | .note (.calibrating _ _) => False
  | .read _ _ | .note _ | .pause _ => True

namespace Calibration

/-- What holds of procedures beside the launches of a calibration, and of the launches with their
notes, holds of the whole. -/
theorem holds_of_parts {M : ∀ {α : Type}, Procedure α → Prop} (hM : Compositional M)
    {b : Block} (hbeside : ∀ {α : Type} {p : Procedure α}, p.Emits Event.Beside → M p)
    (hlaunch : ∀ submodule count,
      M (log (.calibrating b submodule) >>= fun _ => launch b submodule count)) :
    M (takeBackup b >>= fun backup =>
      forceAll (setUpAndConverge b backup :: cleanUp b backup)) := by
  have hread : ∀ a ∈ setUpRegisters, ∀ answer, (Event.read a answer).Beside := fun _ _ _ => trivial
  have hwrite : ∀ a ∈ setUpRegisters, ∀ value accepted, (Event.write a value accepted).Beside :=
    fun a ha _ _ => memory_of_setUp a ha
  have hnote (stage : DbStage) (gain : Int) : (Event.note (.clampedGain stage gain)).Beside :=
    trivial
  -- a loop is a launch, and what is beside the strobe after it
  have hsettle (submodule : Nat) (count : BitVec 6) : M (settle b submodule count) := by
    rw [settle_eq, ← LawfulMonad.bind_assoc]
    refine hM.bind (hlaunch submodule count) fun _ => hbeside ?_
    exact emits_awaitValue (fun _ => trivial) (fun _ => trivial) (fun _ => trivial)
      (fun _ => trivial) trivial
  have hadopt (value : BitVec 6) : (adopt b value).Emits Event.Beside :=
    emits_adopt (fun _ _ => trivial) (fun h _ _ => memory_of_dcLevel h) b value
  have hconverge : M (converge b .highest) :=
    hM.converge (fun submodule => hbeside (emits_routeStages hread hwrite b submodule)) hsettle
      (fun value => hbeside (hadopt value))
      (fun _ _ h => hbeside (emits_setDb hwrite hnote (Block.adjusted_stage h) _)) .highest
  refine hM.bind (hbeside (emits_takeBackup hread b)) fun backup => hM.forceAll ?_
  refine List.forall_mem_cons.2 ⟨?_, fun p hp => ?_⟩
  · exact hM.bind (hbeside (emits_setUp hread hwrite hnote b backup)) fun _ => hconverge
  · exact hbeside (emits_cleanUp hread hwrite hnote b backup p hp)

variable {b : Block} {past new : List Event} {r r' : RegisterFile}

/-! ## A strobe that has been left up -/

theorem control_ne_memory (b : Block) : Site.at (Dc.start b).address ≠ .memory :=
  fun hmemory => nomatch (Site.at_submodule b).symm.trans hmemory

/-- Once its register is written, the strobe is what it is in the byte. -/
theorem flag_set_control (b : Block) (r : RegisterFile) (control : Byte) :
    (r.set (Dc.submodule b).address control).flag (Dc.start b) = (Dc.start b).isSet control :=
  congrArg (Dc.start b).isSet (RegisterFile.get_set_self _ _ _)

/-- In the history the start strobe has been raised, the write that was to drop it has been refused,
and every later byte for the control register has had it put. -/
def Stranded (b : Block) (history : List Event) : Prop :=
  ∃ pre raised dropped post,
    history = pre ++ .write (Dc.start b).address raised true ::
      .write (Dc.start b).address dropped false :: post ∧
    (Dc.start b).isSet raised = true ∧ (Dc.start b).isSet dropped = false ∧
    ∀ value, .write (Dc.start b).address value true ∈ post → (Dc.start b).isSet value = true

theorem Stranded.append (h : Stranded b past)
    (hnew : ∀ value, .write (Dc.start b).address value true ∈ new →
      (Dc.start b).isSet value = true) : Stranded b (past ++ new) := by
  obtain ⟨pre, raised, dropped, post, rfl, hraised, hdropped, hpost⟩ := h
  refine ⟨pre, raised, dropped, post ++ new, by simp, hraised, hdropped, fun value hmem => ?_⟩
  exact (List.mem_append.1 hmem).elim (hpost value) (hnew value)

/-- After such a history the strobe is put. -/
theorem Stranded.flag_after (h : Stranded b past) (r : RegisterFile) :
    (r.after past).flag (Dc.start b) = true := by
  obtain ⟨pre, raised, dropped, post, rfl, hraised, -, hpost⟩ := h
  rw [RegisterFile.after_append, RegisterFile.after_cons, RegisterFile.after_cons]
  by_cases hwritten : Written (Dc.start b).address post
  · exact RegisterFile.flag_after_of_written hwritten hpost _
  · rw [RegisterFile.flag_after_of_not_written hwritten]
    exact (flag_set_control b _ raised).trans hraised

/-- The history explains the strobe in the registers. -/
def Explained (b : Block) (past : List Event) (r : RegisterFile) : Prop :=
  r.flag (Dc.start b) = true → Stranded b past

/-- Where the control register is not written, an explanation stays one. -/
theorem Explained.append (h : Explained b past r)
    (hnew : ∀ value, .write (Dc.start b).address value true ∉ new)
    (hr : r'.flag (Dc.start b) = r.flag (Dc.start b)) : Explained b (past ++ new) r' :=
  fun hflag => (h (hr ▸ hflag)).append fun value hmem => (hnew value hmem).elim

/-! ## Procedures that do not raise the strobe -/

/-- A write that does not put the start strobe of a block. -/
def SparesStart (b : Block) (address : Address) (value : Byte) : Prop :=
  address = (Dc.start b).address → (Dc.start b).isSet value = false

theorem continues_of_sparesStart {α : Type} {p : Procedure α} (h : p.WritesOnly (SparesStart b)) :
    p.Continues (Explained b) := by
  refine continues_of_writesOnly h fun past r new hpast hspares => ?_
  have hclear (value : Byte) (hmem : .write (Dc.start b).address value true ∈ new) :
      (Dc.start b).isSet value = false := hspares _ value hmem rfl
  -- an accepted byte clears the strobe; without one neither strobe nor explanation is touched
  by_cases hwritten : Written (Dc.start b).address new
  · intro hflag
    rw [RegisterFile.flag_after_of_written hwritten hclear] at hflag
    cases hflag
  · exact hpast.append (fun value hmem => hwritten ⟨value, hmem⟩)
      (RegisterFile.flag_after_of_not_written hwritten r)

/-! ## The launch of a run -/

section Launch

/-- The history explains the strobe in the registers, and the strobe in a byte that is `on`. -/
def Carries (b : Block) (on : Bool) (past : List Event) (r : RegisterFile) : Prop :=
  Explained b past r ∧ (on = true → Stranded b past)

variable {on : Bool}

theorem Carries.append (h : Carries b on past r)
    (hnew : ∀ value, .write (Dc.start b).address value true ∉ new)
    (hr : r'.flag (Dc.start b) = r.flag (Dc.start b)) : Carries b on (past ++ new) r' :=
  ⟨h.1.append hnew hr, fun hon => (h.2 hon).append fun value hmem => (hnew value hmem).elim⟩

/-- A byte whose strobe is explained may be written to the control register. -/
theorem continues_writeControl {control : Byte} (hon : (Dc.start b).isSet control = on) :
    (writeByte (Dc.submodule b).address control).Continues (Carries b on) := by
  apply records_writeByte
  · exact fun past r h => h.append (by simp) rfl
  · intro past r h
    have hstays : on = true →
        Stranded b (past ++ [.write (Dc.submodule b).address control true]) := by
      refine fun hput => (h.2 hput).append fun value hmem => ?_
      obtain ⟨-, rfl⟩ : _ ∧ value = control := by simpa using hmem
      exact hon.trans hput
    refine ⟨fun hflag => hstays ?_, hstays⟩
    rwa [flag_set_control, hon] at hflag

/-- To latch a count passes the strobe on as it is. -/
theorem continues_latchCount {control released : Byte} (hcontrol : (Dc.start b).isSet control = on)
    (hreleased : (Dc.start b).isSet released = on) (count : BitVec 6) :
    (latchCount b control count released).Continues (Carries b on) := by
  have hM := compositional_continues (Carries b on)
    fun past r entry h => h.append (by simp) rfl
  have hne : (Dc.count b).address ≠ (Dc.start b).address := by cases b <;> decide
  have hcount : (writeByte (Dc.count b).address ((Dc.count b).set 0 count)).Continues
      (Carries b on) := by
    apply records_writeByte
    · exact fun past r h => h.append (by simp) rfl
    · intro past r h
      refine h.append (by simp [hne.symm]) ?_
      exact congrArg (Dc.start b).isSet (RegisterFile.get_set_of_ne r hne _)
  refine hM.bind (continues_writeControl hcontrol) fun _ => hM.bind hcount fun _ => ?_
  refine hM.bind (continues_writeControl ?_) fun _ => continues_writeControl hreleased
  rw [isSet_start_put_load, hcontrol]

/-- The strobe has just been raised. -/
def Raised (b : Block) (past : List Event) : Prop :=
  ∃ pre raised, past = pre ++ [.write (Dc.start b).address raised true] ∧
    (Dc.start b).isSet raised = true

/-- To raise the strobe and drop it again leaves it up only if the drop is refused. -/
theorem continues_putStart (control : Byte) : (putStart b control).Continues (Explained b) := by
  have hraise : (writeByte (Dc.submodule b).address ((Dc.start b).put control true)).Records
      (Explained b) (endsIn (fun _ past _ => Raised b past) (Explained b)) :=
    records_writeByte (fun past r h => h.append (by simp) rfl)
      fun past r _ => ⟨past, _, rfl, BitField.isSet_put _ _ _⟩
  refine hraise.bind (fun _ => ?_) fun _ _ _ h => h
  have hclear : (Dc.start b).isSet ((Dc.start b).put ((Dc.start b).put control true) false) =
      false := BitField.isSet_put _ _ _
  -- a drop that is refused follows the raise at once, and one that is accepted leaves no strobe
  apply records_writeByte
  · rintro _ r ⟨pre, raised, rfl, hraised⟩ -
    exact ⟨pre, raised, _, [], List.append_assoc _ _ _, hraised, hclear, by simp⟩
  · intro past r _ hflag
    rw [flag_set_control, hclear] at hflag
    cases hflag

/-- A launch builds its bytes from what it has read, whose strobe the history explains. -/
theorem continues_launch (submodule : Nat) (count : BitVec 6) :
    (launch b submodule count).Continues (Explained b) := by
  have hread : (readByte (Dc.submodule b).address).Records (Explained b)
      (endsIn (fun old => Carries b ((Dc.start b).isSet old)) (Explained b)) :=
    records_readByte (stored_control b) (fun past r h => h.append (by simp) rfl)
      fun past r h => Carries.append ⟨h, h⟩ (by simp) rfl
  rw [launch_eq]
  refine hread.bind (fun old => ?_) fun _ _ _ h => h
  have hcontrol := isSet_start_set_submodule b old (BitVec.ofNat 3 submodule)
  -- also a latch that is broken off leaves registers whose strobe is explained
  refine Records.bind (continues_latchCount hcontrol ?_ count) (fun _ => ?_) fun _ _ _ h => h.1
  · rw [isSet_start_put_load, isSet_start_put_load, hcontrol]
  · exact fun refused s past h => continues_putStart _ refused s past h.1

end Launch

/-! ## Every command -/

theorem compositional_explained (b : Block) : Compositional fun p => p.Continues (Explained b) :=
  compositional_continues (Explained b) fun _ _ _ h => h.append (by simp) rfl

theorem continues_calibrate : (calibrate b).Continues (Explained b) := by
  have hM := compositional_explained b
  have hlog (submodule : Nat) : (log (.calibrating b submodule)).Continues (Explained b) :=
    fun _ _ _ h => h.append (by simp) rfl
  have hforced := holds_of_parts (b := b) hM
    (fun hp => continues_of_sparesStart (hp.writesOnly ?_)) fun submodule count =>
      hM.bind (hlog submodule) fun _ => continues_launch submodule count
  · intro refused s past h
    rw [run_calibrate]
    exact hforced refused s past h
  · rintro _ value accepted hmemory rfl
    exact (control_ne_memory b hmemory).elim

/-- Bytes of a block without the start strobe spare the strobes of all blocks. -/
theorem sparesStart_of_clear {b' : Block} {control : Byte}
    (h : (Dc.start b').isSet control = false) :
    SparesStart b (Dc.submodule b').address control := by
  intro haddress
  have hblock : b' = b := by
    revert haddress
    cases b <;> cases b' <;> decide
  exact hblock ▸ h

theorem sparesStart_elsewhere {address : Address} (h : address ≠ (Dc.start b).address)
    (value : Byte) : SparesStart b address value :=
  fun heq => (h heq).elim

theorem continues_readValues : readValues.Continues (Explained b) := by
  refine (compositional_explained b).readValues fun slot => continues_of_sparesStart ?_
  simp [readSlot, sparesStart_of_clear (idle_addressing _ _).start]

theorem continues_loadValues (values : Values) : (loadValues values).Continues (Explained b) := by
  refine (compositional_explained b).loadValues (fun b' on => ?_) (fun slot value => ?_) values
  · have hne : (Clock.calibration b').address ≠ (Dc.start b).address := by
      cases b <;> cases b' <;> decide
    exact continues_of_sparesStart ((writesOnly_put _ _).2 fun _ => sparesStart_elsewhere hne _)
  · have hne : (Dc.count slot.block).address ≠ (Dc.start b).address := by
      cases b <;> cases slot.block <;> decide
    have hidle := idle_addressing slot.block slot.submodule
    have hload : (Dc.start slot.block).isSet
        ((Dc.load slot.block).put (addressing slot.block slot.submodule) true) = false := by
      rw [isSet_start_put_load, hidle.start]
    have haddress : (Dc.load slot.block).address = (Dc.submodule slot.block).address := rfl
    refine continues_of_sparesStart ?_
    simp [loadSlot, haddress, sparesStart_of_clear hidle.start, sparesStart_of_clear hload,
      sparesStart_elsewhere hne]

end Calibration

open Calibration

/-- Calibrating the block, and reading or loading values, are the only commands besides raw ones
that write its control register. -/
theorem Command.control_notMem_writes {b : Block} {command : Command}
    (htame : command.isRaw = false) (hcalibrate : command ≠ .calibrate b)
    (hread : command ≠ .readCalibration) (hload : ∀ values, command ≠ .loadCalibration values) :
    (Dc.start b).address ∉ command.writes := by
  cases command with
  | writeRaw _ _ | setBits _ _ | clearBits _ _ => cases htame
  | calibrate block =>
    cases b <;> cases block <;> first | exact (hcalibrate rfl).elim | decide
  | readCalibration => exact (hread rfl).elim
  | loadCalibration values => exact (hload values rfl).elim
  | setGain request =>
    rcases request with _ | ⟨_ | _⟩ <;> cases b <;> dsimp only [writes] <;> decide
  | enableFrontEnd half on | enablePll half on | enableDither half _ on | enableFilter half on
  | setFilterMode half mode | setBandwidth half width | setBandwidthHz half hz
  | setFrequency half hz | selectBand half hz =>
    cases half <;> cases b <;> dsimp only [writes] <;> decide
  | _ =>
    cases b <;> dsimp only [writes] <;> decide

/-- Every command leaves a history that explains the strobe. -/
theorem Command.continues_explained (b : Block) {command : Command}
    (htame : command.isRaw = false) : command.procedure.Continues (Explained b) := by
  have hM := compositional_explained b
  -- three commands write the control register, and the rest cannot touch the strobe
  by_cases hcalibrate : command = .calibrate b
  · subst hcalibrate
    exact hM.acknowledge continues_calibrate
  by_cases hread : command = .readCalibration
  · subst hread
    exact hM.map continues_readValues _
  by_cases hload : ∃ values, command = .loadCalibration values
  · obtain ⟨values, rfl⟩ := hload
    exact hM.acknowledge (continues_loadValues values)
  have hout := control_notMem_writes htame hcalibrate hread fun values h => hload ⟨values, h⟩
  refine continues_of_sparesStart (command.writesOnly_writes.mono fun address value hmem => ?_)
  exact sparesStart_elsewhere (fun heq => hout (heq ▸ hmem)) value

/-- The start strobe of a block is put exactly if the write that was to drop it has been refused
somewhere in the history, and nothing has dropped it since. -/
theorem Chip.Recalled.flag_start_iff {history : List Event} {c : Chip} (h : Recalled history c)
    (b : Block) : c.registers.flag (Dc.start b) = true ↔ Stranded b history := by
  constructor
  · refine h.invariant (P := Explained b) (fun hflag => ?_) fun _ htame =>
      Command.continues_explained b htame
    have hclear : initialRegisters.flag (Dc.start b) = false := by cases b <;> decide
    rw [hclear] at hflag
    cases hflag
  · intro hstranded
    rw [h.registers]
    exact hstranded.flag_after initialRegisters

end Transceiver
