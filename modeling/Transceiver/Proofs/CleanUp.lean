import Transceiver.Proofs.CarefulCalibration

/-!
# The clean-up of a calibration

What a calibration undoes is a list of items, each with a step of its own. The steps of the
tear-down come first, those of the restoration after them, and a calibration forces them all: it is
its attempts followed by every step of the list, whatever becomes of the ones before.
-/

namespace Transceiver.Calibration

open Procedure Register

/-! ## The steps -/

/-- What a calibration disturbs and puts back or to rest. -/
inductive Item where
  /-- The comparator of the transmit filter, powered down. -/
  | txComparator
  /-- The comparator of the receive filter, powered down. -/
  | rxComparator
  /-- The comparators of RXVGA2, powered down. -/
  | rxvga2Comparators
  /-- The transmit DAC, no longer quiet. -/
  | dac
  /-- The stage gains of RXVGA2, as at power on. -/
  | stages
  /-- The direct control of the stage gains, off. -/
  | decoding
  | clocks
  | input
  | termination
  | lnaGain
  | rxvga1
  | rxvga2
deriving Repr, DecidableEq

/-- The items of the front end. -/
def frontEndItems : List Item := [.input, .termination, .lnaGain, .rxvga1, .rxvga2]

/-- The items of a block, in the order of their steps. -/
def Block.items : Block → List Item
  | .lpfTuning => [.clocks]
  | .txLpf => [.txComparator, .dac, .clocks]
  | .rxLpf => [.rxComparator, .clocks] ++ frontEndItems
  | .rxvga2 => [.stages, .decoding, .rxvga2Comparators, .clocks] ++ frontEndItems

/-- The steps of the tear-down with their items. -/
def tearDownSteps : Block → List (Item × Procedure Unit)
  | .lpfTuning => []
  | .txLpf => [(.txComparator, put Tx.comparatorOff true), (.dac, put Tx.dacQuiet false)]
  | .rxLpf => [(.rxComparator, put Rx.comparatorOff true)]
  | .rxvga2 => [
    (.stages, writeByte rxvga2Stages (stageGains 1 0)),
    (.decoding, put Rx.vga2Decode false),
    (.rxvga2Comparators, assign Rx.vga2ComparatorsOff 3)]

/-- The steps of the restoration with their items. -/
def restoreSteps (backup : Backup) : List (Item × Procedure Unit) :=
  (.clocks, writeByte clockEnable backup.clocks) ::
    match backup.frontEnd with
    | some found => frontEndItems.zip found.restoration
    | none => []

/-- Every step of the clean-up with its item. -/
def cleanUpSteps (b : Block) (backup : Backup) : List (Item × Procedure Unit) :=
  tearDownSteps b ++ restoreSteps backup

/-- The clean-up of a calibration. -/
def cleanUp (b : Block) (backup : Backup) : List (Procedure Unit) :=
  (cleanUpSteps b backup).map Prod.snd

/-- The part of a calibration that is cleaned up after. -/
def setUpAndConverge (b : Block) (backup : Backup) : Procedure Unit := do
  setUp b backup
  converge b .highest

/-! ## A calibration forces its clean-up -/

variable {σ : Type} (t : Transport σ)

/-- Tearing a block down forces its steps. -/
theorem run_tearDown (b : Block) (s : σ) :
    (tearDown b).run t s = (forceAll ((tearDownSteps b).map Prod.snd)).run t s := by
  cases b with
  | lpfTuning | txLpf | rxvga2 => rfl
  | rxLpf => exact (run_forceAll_singleton t _ s).symm

/-- To restore is to force the steps of the restoration. -/
theorem restore_eq (backup : Backup) :
    restore backup = forceAll ((restoreSteps backup).map Prod.snd) := by
  rcases backup with ⟨clocks, _ | found⟩ <;> rfl

/-- Tearing down and restoring are one clean-up. -/
theorem run_cleanUp (b : Block) (backup : Backup) (s : σ) :
    (forceAll [tearDown b, restore backup]).run t s = (forceAll (cleanUp b backup)).run t s := by
  rw [run_forceAll_cons, run_forceAll_singleton, run_tearDown, restore_eq]
  rw [cleanUp, cleanUpSteps, List.map_append, run_forceAll_append]

/-- A calibration takes its backup, and then forces its attempts and every step of the clean-up. -/
theorem run_calibrate (b : Block) (s : σ) :
    (calibrate b).run t s =
      (takeBackup b >>= fun backup =>
        forceAll (setUpAndConverge b backup :: cleanUp b backup)).run t s := by
  have h (backup : Backup) (s : σ) :
      (forceAll [setUpAndConverge b backup, tearDown b, restore backup]).run t s =
        (forceAll (setUpAndConverge b backup :: cleanUp b backup)).run t s := by
    rw [run_forceAll_cons, run_cleanUp, ← run_forceAll_cons]
  show (takeBackup b >>= fun backup =>
    forceAll [setUpAndConverge b backup, tearDown b, restore backup]).run t s = _
  rw [run_bind, run_bind]
  rcases (takeBackup b).run t s with ⟨fault | backup, s', events⟩
  · rfl
  · simp only [h]

/-- Without a backup a calibration does nothing more. -/
theorem run_calibrate_of_error {b : Block} {s : σ} {fault : Fault}
    (h : ((takeBackup b).run t s).result = .error fault) :
    (calibrate b).run t s =
      ⟨.error fault, ((takeBackup b).run t s).state, ((takeBackup b).run t s).events⟩ := by
  rw [run_calibrate, run_bind_of_error t _ h]

/-- With a backup, its attempts are followed by every step of the clean-up. -/
theorem run_calibrate_of_ok {b : Block} {s : σ} {backup : Backup}
    (h : ((takeBackup b).run t s).result = .ok backup) :
    let found := (takeBackup b).run t s
    let body := (setUpAndConverge b backup).run t found.state
    ((calibrate b).run t s).state = stateAfter t (cleanUp b backup) body.state ∧
      ((calibrate b).run t s).events = found.events ++ body.events ++
        (runEach t (cleanUp b backup) body.state).flatMap (·.events) := by
  rw [run_calibrate, run_bind_of_ok t _ h, run_forceAll_cons, run_forceAll]
  exact ⟨rfl, (List.append_assoc _ _ _).symm⟩

/-! ## Careful steps -/

section Careful

variable {W : Address → Byte → Prop} {silent : Fault → Prop} {b : Block} (hW : b.Allows W)

include hW

/-- What is cleaned up after is careful, so a refusal ends it. -/
theorem careful_setUpAndConverge (backup : Backup) :
    (setUpAndConverge b backup).Careful W silent :=
  (careful_setUp hW backup).bind fun _ _ => careful_converge hW .highest

/-- Each step of tearing a block down is careful. -/
theorem careful_tearDownSteps : ∀ step ∈ tearDownSteps b, step.2.Careful W silent := by
  cases b with
  | lpfTuning => simp [tearDownSteps]
  | txLpf =>
    simp only [tearDownSteps, List.forall_mem_cons]
    exact ⟨careful_putDisturbed hW (by decide) _, careful_putDisturbed hW (by decide) _, by simp⟩
  | rxLpf =>
    simp only [tearDownSteps, List.forall_mem_cons]
    exact ⟨careful_putDisturbed hW (by decide) _, by simp⟩
  | rxvga2 =>
    simp only [tearDownSteps, List.forall_mem_cons]
    exact ⟨careful_writeDisturbed hW (by decide) _, careful_putDisturbed hW (by decide) _,
      careful_assign fun _ => hW.disturbed _ (by decide) _, by simp⟩

/-- Putting the front end back is careful, since the gain mode of the LNA that has been found is a
setting. -/
theorem careful_restoreSteps {backup : Backup}
    (h : ∀ found, backup.frontEnd = some found → found.lnaGain ≠ .unknown) :
    ∀ step ∈ restoreSteps backup, step.2.Careful W silent := by
  have hclocks : (writeByte clockEnable backup.clocks).Careful W silent :=
    careful_writeDisturbed hW (by simp [Block.disturbed]) _
  have hset {stage : DbStage} (hmem : stage.address ∈ b.disturbed) (request : Int) :
      (discard (Gain.setDb stage request)).Careful W silent :=
    (Gain.careful_setDb (hW.disturbed _ hmem) request).map _
  rcases backup with ⟨clocks, _ | found⟩
  · simp only [restoreSteps, List.forall_mem_cons]
    exact ⟨hclocks, by simp⟩
  · simp only [restoreSteps, frontEndItems, FrontEnd.restoration, List.zip_cons_cons,
      List.forall_mem_cons]
    exact ⟨hclocks, careful_writeDisturbed hW (by simp [Block.disturbed]) _,
      careful_writeDisturbed hW (by simp [Block.disturbed]) _,
      Gain.careful_setLna (h found rfl) (hW.lnaGain _ (h found rfl)),
      hset (by simp [Block.disturbed, DbStage.address]) _,
      hset (by simp [Block.disturbed, DbStage.address]) _, by simp⟩

/-- Each step of the clean-up is careful, if the backup holds a setting of the LNA. -/
theorem careful_cleanUp {backup : Backup}
    (h : ∀ found, backup.frontEnd = some found → found.lnaGain ≠ .unknown) :
    ∀ p ∈ cleanUp b backup, p.Careful W silent := by
  intro p hp
  obtain ⟨step, hstep, rfl⟩ := List.mem_map.1 hp
  rcases List.mem_append.1 hstep with hstep | hstep
  · exact careful_tearDownSteps hW step hstep
  · exact careful_restoreSteps hW h step hstep

end Careful

/-- A backup that has been taken holds a setting of the LNA. -/
theorem lnaGain_ne_unknown {b : Block} {backup : Backup} (h : (takeBackup b).CanReturn backup)
    {found : FrontEnd} (hf : backup.frontEnd = some found) : found.lnaGain ≠ .unknown := by
  obtain ⟨clocks, -, h⟩ := canReturn_bind.1 h
  split at h
  · obtain ⟨frontEnd, hread, h⟩ := canReturn_bind.1 h
    obtain rfl := canReturn_pure.1 h
    obtain rfl := Option.some.inj hf
    simp only [readFrontEnd, canReturn_bind, canReturn_pure] at hread
    obtain ⟨_, -, _, -, gain, hgain, _, -, _, -, rfl⟩ := hread
    exact Gain.ne_unknown_of_canReturn hgain
  · obtain rfl := canReturn_pure.1 h
    cases hf

/-- A calibration writes what it may write, however it goes. -/
theorem writesOnly_calibrate {W : Address → Byte → Prop} {b : Block} (hW : b.Allows W) :
    (calibrate b).WritesOnly W := by
  have hbackup : (takeBackup b).Careful W fun _ => True := careful_takeBackup trivial b
  refine writesOnly_bind.2 ⟨hbackup.writesOnly, fun backup hreturned => ?_⟩
  have hbody : (setUpAndConverge b backup).Careful W fun _ => True :=
    careful_setUpAndConverge hW backup
  have htearDown : ∀ step ∈ tearDownSteps b, step.2.Careful W fun _ => True :=
    careful_tearDownSteps hW
  -- a gain of the LNA that is written back has been read, so that it is known
  have hrestore : ∀ step ∈ restoreSteps backup, step.2.Careful W fun _ => True :=
    careful_restoreSteps hW fun found hfound => lnaGain_ne_unknown hreturned hfound
  have hforced {steps : List (Item × Procedure Unit)}
      (h : ∀ step ∈ steps, step.2.Careful W fun _ => True) :
      ∀ p ∈ steps.map Prod.snd, p.WritesOnly W := by
    simpa using fun p item hmem => (h (item, p) hmem).writesOnly
  have htear : (tearDown b).WritesOnly W := by
    cases b with
    | rxLpf => exact hforced htearDown _ List.mem_cons_self
    | lpfTuning | txLpf | rxvga2 => exact WritesOnly.forceAll (hforced htearDown)
  have hback : (restore backup).WritesOnly W := by
    rw [restore_eq]
    exact WritesOnly.forceAll (hforced hrestore)
  refine WritesOnly.forceAll ?_
  simp only [List.forall_mem_cons]
  exact ⟨hbody.writesOnly, htear, hback, by simp⟩

end Transceiver.Calibration
