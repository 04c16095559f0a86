import Transceiver.Proofs.CleanUp
import Transceiver.Proofs.Composition
import Transceiver.Proofs.Reach

/-!
# The reach of a calibration

What a calibration can change at all: the clock enables, the registers of its own block, and the
settings that the block disturbs. A block that is calibrated through the front end disturbs more,
but of the LNA control only the gain. However many gains are tried, an attempt keeps to the same
bits.
-/

namespace Transceiver.Calibration

open Procedure Register

/-! ## The bits within reach -/

/-- The bits of the front end that a calibration through it changes. -/
def frontEndReach : List Bits := [
  .register rxInput, .register Register.rxTermination, Rx.lnaGain.bits, .register rxvga1Gain,
  .register rxvga2Gain]

namespace Block

/-- The registers of a block. -/
def ownReach (b : Block) : List Bits := [
  .register b.base, .register (b.base + 1), .register (b.base + 2), .register (b.base + 3)]

/-- The bits outside a block that its calibration changes, the clock enables apart. -/
def settingsReach : Block → List Bits
  | .lpfTuning => [(Lpf.dcLevel .tx).bits, (Lpf.dcLevel .rx).bits]
  | .txLpf => [Tx.comparatorOff.bits, Tx.dacQuiet.bits]
  | .rxLpf => Rx.comparatorOff.bits :: frontEndReach
  | .rxvga2 =>
    [Rx.vga2ComparatorsOff.bits, Rx.vga2Decode.bits, .register rxvga2Stages] ++ frontEndReach

/-- Every bit that the calibration of a block changes. -/
def reach (b : Block) : List Bits :=
  .register clockEnable :: (b.ownReach ++ b.settingsReach)

theorem clocks_mem_reach (b : Block) : .register clockEnable ∈ b.reach :=
  List.mem_cons_self

theorem own_mem_reach {b : Block} {bits : Bits} (h : bits ∈ b.ownReach) : bits ∈ b.reach :=
  List.mem_cons_of_mem _ (List.mem_append_left _ h)

theorem settings_mem_reach {b : Block} {bits : Bits} (h : bits ∈ b.settingsReach) :
    bits ∈ b.reach :=
  List.mem_cons_of_mem _ (List.mem_append_right _ h)

/-- The front end is in reach of a block that is calibrated through it. -/
theorem frontEnd_mem_reach {b : Block} (hb : b.usesFrontEnd) {bits : Bits}
    (h : bits ∈ frontEndReach) : bits ∈ b.reach := by
  cases b with
  | lpfTuning | txLpf => cases hb
  | rxLpf => exact settings_mem_reach (List.mem_cons_of_mem _ h)
  | rxvga2 => exact settings_mem_reach (List.mem_append_right _ h)

/-- Only a block that is calibrated through the front end is tried at lower gains. -/
theorem adjusted_mem_reach {b : Block} {gains : Gains} {a : Adjustment}
    (h : b.adjustment? gains = some a) : .register a.stage.address ∈ b.reach := by
  refine frontEnd_mem_reach (adjustment?_cases h).1 ?_
  rcases adjusted_stage h with hstage | hstage <;> rw [hstage] <;> decide

end Block

/-! ## The parts of a calibration -/

variable {b : Block}

/-- Setting a gain changes the register of its stage. -/
theorem within_setDb {stage : DbStage} (h : .register stage.address ∈ b.reach) (request : Int) :
    (Gain.setDb stage request).Within b.reach := by
  have hcareful : (Gain.setDb stage request).Careful
      (fun address _ => Bits.register address ∈ b.reach) fun _ => False :=
    Gain.careful_setDb (fun _ => h) request
  exact within_of_writesOnly hcareful.writesOnly

theorem within_setLna (hb : b.usesFrontEnd) (gain : Amplifier.LnaGain) :
    (Gain.setLna gain).Within b.reach := by
  have hgain : Rx.lnaGain.bits ∈ b.reach := Block.frontEnd_mem_reach hb (by decide)
  cases gain with
  | unknown => exact within_fail _
  | bypass | mid | max => exact within_assign rfl hgain _

/-- A loop changes registers of its own block. -/
theorem within_settle (b : Block) (submodule : Nat) (count : BitVec 6) :
    (settle b submodule count).Within b.reach := by
  have hcareful : (settle b submodule count).Careful
      (fun address _ => Bits.register address ∈ b.reach) fun _ => False :=
    careful_settle (fun _ => Block.own_mem_reach (by simp [Block.ownReach, Dc.submodule]))
      (fun _ => Block.own_mem_reach (by simp [Block.ownReach, Dc.count])) submodule count
  exact within_of_writesOnly hcareful.writesOnly

/-- Routing changes the stages of RXVGA2 and the bit that selects them. -/
theorem within_routeStages (b : Block) (submodule : Nat) :
    (routeStages b submodule).Within b.reach := by
  have hdecode : Rx.vga2Decode.bits ∈ Block.rxvga2.reach := by decide
  have hstages : .register rxvga2Stages ∈ Block.rxvga2.reach := by decide
  unfold routeStages
  split
  · exact (within_put rfl hdecode _).bind fun _ => within_writeByte hstages _
  · exact (within_put rfl hdecode _).bind fun _ => within_writeByte hstages _
  · exact within_writeByte hstages _
  · exact within_pure ()
  · exact within_pure ()
  · exact within_fail _
  all_goals exact within_pure ()

/-- The filter tuning changes the DC levels of both filters. -/
theorem within_adopt (b : Block) (value : BitVec 6) : (adopt b value).Within b.reach := by
  cases b with
  | lpfTuning =>
    exact (within_assign rfl (by decide) value).bind fun _ => within_assign rfl (by decide) value
  | txLpf | rxLpf | rxvga2 => exact within_pure ()

/-- Changes stay within reach part by part. -/
theorem compositional_within (reach : List Bits) : Compositional fun p => p.Within reach where
  done _ := within_of_writesOnly trivial
  log entry _ := within_log entry
  bind := Within.bind
  attempt hp := fun refused s => by
    rw [run_attempt]
    exact hp refused s

/-- Every further attempt changes the same bits as the first, and the gain that it lowers. -/
theorem within_converge (b : Block) (gains : Gains) : (converge b gains).Within b.reach :=
  (compositional_within b.reach).converge (within_routeStages b) (within_settle b) (within_adopt b)
    (fun _ a h => within_setDb (Block.adjusted_mem_reach h) a.gain) gains

/-- Each block powers comparators of its own. -/
theorem within_powerComparators (b : Block) : (powerComparators b).Within b.reach := by
  cases b with
  | lpfTuning => exact within_pure ()
  | txLpf => exact (within_put rfl (by decide) _).bind fun _ => within_put rfl (by decide) _
  | rxLpf => exact within_put rfl (by decide) _
  | rxvga2 => exact within_assign rfl (by decide) _

/-- Isolating the front end changes nothing outside it. -/
theorem within_isolateFrontEnd (hb : b.usesFrontEnd) (found : FrontEnd) :
    (isolateFrontEnd found).Within b.reach := by
  have hmem {bits : Bits} (h : bits ∈ frontEndReach) := Block.frontEnd_mem_reach hb h
  refine (within_writeByte (hmem (by decide)) _).bind fun _ => ?_
  refine (within_writeByte (hmem (by decide)) _).bind fun _ => ?_
  refine (within_setLna hb .max).bind fun _ => ?_
  refine (within_setDb (hmem (by decide)) _).bind fun _ => ?_
  exact (within_setDb (hmem (by decide)) _).bind fun _ => within_pure ()

/-- All of the body stays within reach, if the backup holds a front end only for a block that uses
it. -/
theorem within_setUpAndConverge {backup : Backup}
    (h : ∀ found, backup.frontEnd = some found → b.usesFrontEnd) :
    (setUpAndConverge b backup).Within b.reach := by
  refine Within.bind ?_ fun _ => within_converge b .highest
  refine (within_writeByte b.clocks_mem_reach _).bind fun _ => ?_
  refine (within_powerComparators b).bind fun _ => ?_
  split
  · next found hfound => exact within_isolateFrontEnd (h found hfound) found
  · exact within_pure ()

/-- And so does every step of the clean-up. -/
theorem within_cleanUp {backup : Backup}
    (h : ∀ found, backup.frontEnd = some found → b.usesFrontEnd) :
    ∀ p ∈ cleanUp b backup, p.Within b.reach := by
  have htearDown : ∀ step ∈ tearDownSteps b, step.2.Within b.reach := by
    cases b with
    | lpfTuning => simp [tearDownSteps]
    | txLpf =>
      simp only [tearDownSteps, List.forall_mem_cons]
      exact ⟨within_put rfl (by decide) _, within_put rfl (by decide) _, by simp⟩
    | rxLpf =>
      simp only [tearDownSteps, List.forall_mem_cons]
      exact ⟨within_put rfl (by decide) _, by simp⟩
    | rxvga2 =>
      simp only [tearDownSteps, List.forall_mem_cons]
      exact ⟨within_writeByte (by decide) _, within_put rfl (by decide) _,
        within_assign rfl (by decide) _, by simp⟩
  -- without a backup of the front end only the clocks are written back
  have hrestore : ∀ step ∈ restoreSteps backup, step.2.Within b.reach := by
    rcases backup with ⟨clocks, _ | found⟩
    · simp only [restoreSteps, List.forall_mem_cons]
      exact ⟨within_writeByte b.clocks_mem_reach _, by simp⟩
    · have hb := h found rfl
      have hmem {bits : Bits} (h : bits ∈ frontEndReach) := Block.frontEnd_mem_reach hb h
      simp only [restoreSteps, frontEndItems, FrontEnd.restoration, List.zip_cons_cons,
        List.forall_mem_cons]
      exact ⟨within_writeByte b.clocks_mem_reach _, within_writeByte (hmem (by decide)) _,
        within_writeByte (hmem (by decide)) _, within_setLna hb _,
        (within_setDb (hmem (by decide)) _).map _, (within_setDb (hmem (by decide)) _).map _,
        by simp⟩
  intro p hp
  obtain ⟨step, hstep, rfl⟩ := List.mem_map.1 hp
  rcases List.mem_append.1 hstep with hstep | hstep
  · exact htearDown step hstep
  · exact hrestore step hstep

end Transceiver.Calibration
