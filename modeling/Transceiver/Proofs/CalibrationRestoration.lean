import Transceiver.Proofs.CalibrationReach
import Transceiver.Proofs.RegisterSteps

/-!
# A calibration cleans up

Before a calibration writes anything, it has read all that it is going to disturb. After that, every
step of the clean-up is run, whatever has failed, and each step that is not refused itself puts its
own item right for good: it stores one register, and no other step writes that register.

The gains of RXVGA1 and RXVGA2 are put back by their value in dB. The code of a gain need not be the
code that was found, but both stand for the same gain.
-/

namespace Transceiver.Calibration

open Procedure Register Chip

/-! ## The backup -/

/-- The front end as some registers show it. -/
def FrontEnd.of (r : RegisterFile) : FrontEnd where
  input := r.get rxInput
  termination := r.get Register.rxTermination
  lnaGain := Amplifier.LnaGain.ofBits (Rx.lnaGain.get (r.get lnaControl))
  rxvga1 := DbStage.rxvga1.decode (r.get rxvga1Gain)
  rxvga2 := DbStage.rxvga2.decode (r.get rxvga2Gain)

/-- What the calibration of a block has to put back to get to some registers. -/
def Backup.of (b : Block) (r : RegisterFile) : Backup where
  clocks := r.get clockEnable
  frontEnd := if b.usesFrontEnd then some (FrontEnd.of r) else none

/-- The block is calibrated through the front end, and the gain of the LNA is no setting. -/
def GainUnknown (b : Block) (r : RegisterFile) : Prop :=
  b.usesFrontEnd ∧ (FrontEnd.of r).lnaGain = .unknown

instance (b : Block) (r : RegisterFile) : Decidable (GainUnknown b r) :=
  inferInstanceAs (Decidable (_ ∧ _))

variable (refused : Nat → Bool)

/-- A gain is read from its register. -/
theorem atomic_readDb {stage : DbStage} (h : (Site.at stage.address).isStored)
    (s : Nat × Chip) :
    ((Gain.readDb stage).run (bus refused) s).Atomic s.2.registers s.2.registers
      (.ok (stage.decode (s.2.registers.get stage.address))) :=
  atomic_map refused (atomic_readByte refused h s) stage.decode

/-- The gain mode of the LNA is read, unless it is no setting. -/
theorem atomic_readLna (s : Nat × Chip) :
    (Gain.readLna.run (bus refused) s).Atomic s.2.registers s.2.registers
      (if (FrontEnd.of s.2.registers).lnaGain = .unknown then .error .unexpectedState
        else .ok (FrontEnd.of s.2.registers).lnaGain) := by
  have hstored : (Site.at Rx.lnaGain.address).isStored := rfl
  refine atomic_bind refused (atomic_load refused hstored s) fun s' hs => ?_
  have hgain : (FrontEnd.of s'.2.registers).lnaGain =
      Amplifier.LnaGain.ofBits (Rx.lnaGain.get (s'.2.registers.get Rx.lnaGain.address)) := rfl
  rw [← hs, hgain]
  generalize Amplifier.LnaGain.ofBits _ = gain
  cases gain with
  | unknown => exact atomic_fail refused _ s'
  | bypass | mid | max => exact atomic_pure refused _ s'

/-- The front end is read whole, or not at all. -/
theorem atomic_readFrontEnd (s : Nat × Chip) :
    (readFrontEnd.run (bus refused) s).Atomic s.2.registers s.2.registers
      (if (FrontEnd.of s.2.registers).lnaGain = .unknown then .error .unexpectedState
        else .ok (FrontEnd.of s.2.registers)) := by
  refine atomic_bind refused (atomic_readByte refused rfl s) fun s₁ h₁ => ?_
  refine atomic_bind refused (atomic_readByte refused rfl s₁) fun s₂ h₂ => ?_
  rw [← h₁, ← h₂]
  have hlna := atomic_readLna refused s₂
  split
  · next hgain =>
    rw [if_pos hgain] at hlna
    exact atomic_bind_of_error refused hlna _
  · next hgain =>
    rw [if_neg hgain] at hlna
    refine atomic_bind refused hlna fun s₃ h₃ => ?_
    refine atomic_bind refused (atomic_readDb refused rfl s₃) fun s₄ h₄ => ?_
    refine atomic_bind refused (atomic_readDb refused rfl s₄) fun s₅ h₅ => ?_
    rw [← h₃, ← h₄, ← h₅]
    exact atomic_pure refused _ s₅

/-- Taking the backup is refused, or it gives what the registers show. -/
theorem atomic_takeBackup (b : Block) (s : Nat × Chip) :
    ((takeBackup b).run (bus refused) s).Atomic s.2.registers s.2.registers
      (if GainUnknown b s.2.registers then .error .unexpectedState
        else .ok (Backup.of b s.2.registers)) := by
  refine atomic_bind refused (atomic_readByte refused rfl s) fun s₁ h₁ => ?_
  rw [← h₁]
  -- only the blocks in the receive path read the front end, and with it the gain of the LNA
  by_cases hb : b.usesFrontEnd
  · have hread := atomic_readFrontEnd refused s₁
    simp only [GainUnknown, Backup.of, hb, true_and, if_true]
    split
    · next hgain =>
      rw [if_pos hgain] at hread
      exact atomic_bind_of_error refused hread _
    · next hgain =>
      rw [if_neg hgain] at hread
      refine atomic_bind refused hread fun s₂ h₂ => ?_
      rw [← h₂]
      exact atomic_pure refused _ s₂
  · have hknown : ¬ GainUnknown b s₁.2.registers := fun h => hb h.1
    rw [if_neg hknown]
    simp only [Backup.of, hb]
    exact atomic_pure refused _ s₁

/-! ## The items -/

namespace Item

/-- The register that the step of an item stores. -/
def register : Item → Address
  | .txComparator => txLpfComparator
  | .rxComparator => rxLpfComparator
  | .rxvga2Comparators => rxvga2Comparator
  | .dac => txDac
  | .stages => rxvga2Stages
  | .decoding => rxvga2Control
  | .clocks => clockEnable
  | .input => rxInput
  | .termination => Register.rxTermination
  | .lnaGain => lnaControl
  | .rxvga1 => rxvga1Gain
  | .rxvga2 => rxvga2Gain

/-- What the step of an item stores, by what the registers held before the calibration and what
they hold when the step is run. -/
def stored (item : Item) (original now : RegisterFile) : Byte :=
  match item with
  | .txComparator => Tx.comparatorOff.put (now.get txLpfComparator) true
  | .rxComparator => Rx.comparatorOff.put (now.get rxLpfComparator) true
  | .rxvga2Comparators => Rx.vga2ComparatorsOff.set (now.get rxvga2Comparator) 3
  | .dac => Tx.dacQuiet.put (now.get txDac) false
  | .stages => stageGains 1 0
  | .decoding => Rx.vga2Decode.put (now.get rxvga2Control) false
  | .clocks => original.get clockEnable
  | .input => original.get rxInput
  | .termination => original.get Register.rxTermination
  | .lnaGain => Rx.lnaGain.set (now.get lnaControl) (FrontEnd.of original).lnaGain.bits
  | .rxvga1 => DbStage.rxvga1.encode (DbStage.rxvga1.clamp (FrontEnd.of original).rxvga1) 0
  | .rxvga2 => DbStage.rxvga2.encode (DbStage.rxvga2.clamp (FrontEnd.of original).rxvga2) 0

/-- An item is as it was before the calibration, or at rest. -/
def Restored (item : Item) (before after : Chip) : Prop :=
  match item with
  | .txComparator => Tx.comparatorOff.isSet (after.registers.get txLpfComparator) = true
  | .rxComparator => Rx.comparatorOff.isSet (after.registers.get rxLpfComparator) = true
  | .rxvga2Comparators => Rx.vga2ComparatorsOff.get (after.registers.get rxvga2Comparator) = 3
  | .dac => Tx.dacQuiet.isSet (after.registers.get txDac) = false
  | .stages => after.registers.get rxvga2Stages = 0x01
  | .decoding => Rx.vga2Decode.isSet (after.registers.get rxvga2Control) = false
  | .clocks => after.registers.get clockEnable = before.registers.get clockEnable
  | .input => after.registers.get rxInput = before.registers.get rxInput
  | .termination =>
    after.registers.get Register.rxTermination = before.registers.get Register.rxTermination
  | .lnaGain => after.registers.get lnaControl = before.registers.get lnaControl
  | .rxvga1 => after.shows (Gain.readDb .rxvga1) = before.shows (Gain.readDb .rxvga1)
  | .rxvga2 => after.shows (Gain.readDb .rxvga2) = before.shows (Gain.readDb .rxvga2)

end Item

/-- The items of a block have registers of their own. -/
theorem Block.nodup_registers (b : Block) : (b.items.map Item.register).Nodup := by
  cases b <;> decide

/-- Each step of the restoration of the front end sets the item that it is listed with. -/
theorem frontEnd_sets {r : RegisterFile} (h : (FrontEnd.of r).lnaGain ≠ .unknown) :
    ∀ step ∈ frontEndItems.zip (FrontEnd.of r).restoration,
      step.2.Sets step.1.register (step.1.stored r) := by
  simp only [frontEndItems, FrontEnd.restoration, List.zip_cons_cons, List.forall_mem_cons]
  exact ⟨sets_writeByte _ _, sets_writeByte _ _, sets_setLna h, sets_setDb (.inl rfl) _,
    sets_setDb (.inr rfl) _, by simp⟩

/-- And so does each step of tearing the block down. -/
theorem tearDown_sets (b : Block) (r : RegisterFile) :
    ∀ step ∈ tearDownSteps b, step.2.Sets step.1.register (step.1.stored r) := by
  cases b with
  | lpfTuning => simp [tearDownSteps]
  | txLpf =>
    simp only [tearDownSteps, List.forall_mem_cons]
    exact ⟨sets_put Tx.comparatorOff true rfl, sets_put Tx.dacQuiet false rfl, by simp⟩
  | rxLpf =>
    simp only [tearDownSteps, List.forall_mem_cons]
    exact ⟨sets_put Rx.comparatorOff true rfl, by simp⟩
  | rxvga2 =>
    simp only [tearDownSteps, List.forall_mem_cons]
    exact ⟨sets_writeByte _ _, sets_put Rx.vga2Decode false rfl,
      sets_assign Rx.vga2ComparatorsOff 3 rfl, by simp⟩

/-- With the backup of some registers, every step of the clean-up stores the register of its own
item. -/
theorem cleanUp_sets {b : Block} {r : RegisterFile} (h : ¬ GainUnknown b r) :
    ∀ step ∈ cleanUpSteps b (Backup.of b r), step.2.Sets step.1.register (step.1.stored r) := by
  intro step hstep
  rcases List.mem_append.1 hstep with hstep | hstep
  · exact tearDown_sets b r step hstep
  · rcases List.mem_cons.1 hstep with rfl | hstep
    · exact sets_writeByte _ _
    · by_cases hb : b.usesFrontEnd
      · have hgain : (FrontEnd.of r).lnaGain ≠ .unknown := fun hu => h ⟨hb, hu⟩
        simp only [Backup.of, hb, if_true] at hstep
        exact frontEnd_sets hgain step hstep
      · simp [Backup.of, hb] at hstep

/-- The items of the clean-up are those of the block. -/
theorem cleanUp_items (b : Block) (r : RegisterFile) :
    (cleanUpSteps b (Backup.of b r)).map Prod.fst = b.items := by
  cases b <;> rfl

/-! ## What a step has stored is right -/

theorem shows_readDb (stage : DbStage) (h : (Site.at stage.address).isStored) (c : Chip) :
    c.shows (Gain.readDb stage) = .ok (stage.decode (c.registers.get stage.address)) := by
  have hc : { c with failRead := none, failWrite := none : Chip }.failRead = none := rfl
  unfold shows Gain.readDb
  rw [← bind_pure_comp, run_bind_of_ok _ _ (by rw [run_readByte_transport h hc]),
    run_readByte_transport h hc]
  rfl

/-- Putting a gain back by its value in dB gives back the value, whatever the code was. -/
theorem decode_encode_rxvga1 (contents : Byte) :
    DbStage.rxvga1.decode
      (DbStage.rxvga1.encode (DbStage.rxvga1.clamp (DbStage.rxvga1.decode contents)) 0) =
      DbStage.rxvga1.decode contents := by
  revert contents
  decide +kernel

theorem decode_encode_rxvga2 (contents : Byte) :
    DbStage.rxvga2.decode
      (DbStage.rxvga2.encode (DbStage.rxvga2.clamp (DbStage.rxvga2.decode contents)) 0) =
      DbStage.rxvga2.decode contents := by
  revert contents
  decide +kernel

/-- The two bits of a gain mode are written back as they were read. -/
theorem bits_ofBits (bits : BitVec 2) : (Amplifier.LnaGain.ofBits bits).bits = bits := by
  revert bits
  decide

/-- Of the LNA control, a calibration reaches the gain only. -/
theorem lnaControl_covers (b : Block) {i : Nat} (hi : i < 6) :
    ∀ bits ∈ b.reach, ¬ bits.Covers lnaControl i := by
  revert i
  cases b <;> decide

/-- Setting the gain of the LNA to what it was gives the whole register back. -/
theorem lnaControl_stored {b : Block} {original now : RegisterFile}
    (h : original.AgreeOutside b.reach now) :
    Item.lnaGain.stored original now = original.get lnaControl := by
  apply BitVec.eq_of_getLsbD_eq
  intro i hi
  simp only [Item.stored, FrontEnd.of, bits_ofBits, BitField.getLsbD_set, BitField.getLsbD_get]
  -- the gain is in the top two bits, the other six have never been touched
  by_cases hgain : 6 ≤ i
  · have hin : Rx.lnaGain.offset ≤ i ∧ i < Rx.lnaGain.offset + 2 := ⟨hgain, hi⟩
    have hsum : Rx.lnaGain.offset + (i - Rx.lnaGain.offset) = i := Nat.add_sub_cancel' hin.1
    have hlt : i - Rx.lnaGain.offset < 2 := by omega
    rw [if_pos hin, hsum, decide_eq_true hlt, Bool.true_and]
  · have hout : ¬ (Rx.lnaGain.offset ≤ i ∧ i < Rx.lnaGain.offset + 2) := fun hin => hgain hin.1
    rw [if_neg hout]
    exact h lnaControl i (lnaControl_covers b (Nat.not_le.1 hgain))

/-- An item is restored by what its step stores. -/
theorem Item.restored_of_stored {item : Item} {b : Block} {before after : Chip}
    {now : RegisterFile} (hnow : before.registers.AgreeOutside b.reach now)
    (h : after.registers.get item.register = item.stored before.registers now) :
    item.Restored before after := by
  cases item with
  | txComparator | rxComparator | dac | decoding =>
    simp only [Restored]
    exact (congrArg _ h).trans (BitField.isSet_put _ _ _)
  | rxvga2Comparators => exact (congrArg _ h).trans (BitField.get_set_self _ _ _)
  | stages | clocks | input | termination => exact h
  | lnaGain => exact h.trans (lnaControl_stored hnow)
  | rxvga1 =>
    have hdb := congrArg DbStage.rxvga1.decode h
    simp only [Restored, shows_readDb .rxvga1 rfl]
    exact congrArg Except.ok (hdb.trans (decode_encode_rxvga1 _))
  | rxvga2 =>
    have hdb := congrArg DbStage.rxvga2.decode h
    simp only [Restored, shows_readDb .rxvga2 rfl]
    exact congrArg Except.ok (hdb.trans (decode_encode_rxvga2 _))

/-! ## After the clean-up -/

/-- The backup of a block holds a front end only if the block uses it. -/
theorem usesFrontEnd_of_backup {b : Block} {r : RegisterFile} {found : FrontEnd}
    (h : (Backup.of b r).frontEnd = some found) : b.usesFrontEnd := by
  unfold Backup.of at h
  split at h
  · assumption
  · cases h

/-- A step that is not refused restores its item, whatever the other steps come to. -/
theorem restored_of_accepted {b : Block} {c : Chip} (hknown : ¬ GainUnknown b c.registers)
    {before after : List (Item × Procedure Unit)} {item : Item} {p : Procedure Unit}
    (h : cleanUpSteps b (Backup.of b c.registers) = before ++ (item, p) :: after) {s : Nat × Chip}
    (hs : c.registers.AgreeOutside b.reach s.2.registers)
    (haccepted : ∀ e ∈ (p.run (bus refused)
      (stateAfter (bus refused) (before.map Prod.snd) s)).events, e.isRefused = false) :
    item.Restored c (stateAfter (bus refused) (cleanUp b (Backup.of b c.registers)) s).2 := by
  have hsets := cleanUp_sets hknown
  have hwithin := within_cleanUp (b := b) fun _ => usesFrontEnd_of_backup (r := c.registers)
  have hsteps : cleanUp b (Backup.of b c.registers) =
      before.map Prod.snd ++ p :: after.map Prod.snd := by
    rw [cleanUp, h, List.map_append, List.map_cons]
  -- the steps after this one write other registers
  have hafter : ∀ q ∈ after.map Prod.snd, q.WritesOnly fun a _ => a ≠ item.register := by
    have hnodup := b.nodup_registers
    rw [← cleanUp_items b c.registers, h] at hnodup
    simp only [List.map_append, List.map_cons, List.map_map] at hnodup
    have hnotin := (List.nodup_cons.1 (List.nodup_append.1 hnodup).2.1).1
    intro q hq
    obtain ⟨step, hmem, rfl⟩ := List.mem_map.1 hq
    have hwrites := (hsets step (by rw [h]; simp [hmem])).writes
    refine hwrites.mono fun a _ ha hitem => hnotin ?_
    exact List.mem_map.2 ⟨step, hmem, ha.symm.trans hitem⟩
  have hnow : c.registers.AgreeOutside b.reach
      (stateAfter (bus refused) (before.map Prod.snd) s).2.registers := by
    refine hs.trans (agreeOutside_stateAfter refused (fun q hq => hwithin q ?_) s)
    rw [hsteps]
    exact List.mem_append_left _ hq
  rw [hsteps, stateAfter_append]
  refine Item.restored_of_stored hnow ?_
  show (stateAfter (bus refused) (after.map Prod.snd) (p.run (bus refused) _).state).2.registers.get
    item.register = _
  rw [get_stateAfter refused hafter]
  -- the step itself went through, so its register holds what it stores
  have hset := hsets (item, p) (by rw [h]; simp)
  cases hset.atomic refused (stateAfter (bus refused) (before.map Prod.snd) s) with
  | refused refusal result registers =>
    obtain ⟨e, he, href⟩ := refusal
    simp [haccepted e he] at href
  | accepted accepted result registers =>
    rw [registers, RegisterFile.get_set_self]

/-! ## Every calibration -/

/-- A calibration always cleans up, whatever is refused and however its loops end. If its backup
cannot be taken, it ends there and has written nothing. Otherwise all steps of the clean-up are run,
and every item whose own step is not refused is restored in the end. What is outside the reach of
the block is as it was, in either case. -/
theorem calibrate_cleans_up (b : Block) (n : Nat) (c : Chip) :
    let found := (takeBackup b).run (bus refused) (n, c)
    let o := (calibrate b).run (bus refused) (n, c)
    ((∃ e ∈ found.events, e.isRefused) ∨ GainUnknown b c.registers →
      o.result = .error (if found.events.any Event.isRefused then .io else .unexpectedState) ∧
      ∀ e ∈ o.events, e.isWrite = false) ∧
    ((∀ e ∈ found.events, e.isRefused = false) ∧ ¬ GainUnknown b c.registers →
      ∃ backup, found.result = .ok backup ∧
        let body := (setUpAndConverge b backup).run (bus refused) found.state
        o.events = found.events ++ body.events ++
          (runEach (bus refused) (cleanUp b backup) body.state).flatMap (·.events) ∧
        (cleanUpSteps b backup).map Prod.fst = b.items ∧
        ∀ before item p after, cleanUpSteps b backup = before ++ (item, p) :: after →
          let own := p.run (bus refused)
            (stateAfter (bus refused) (before.map Prod.snd) body.state)
          (∃ e ∈ own.events, e.isAccess) ∧
            ((∀ e ∈ own.events, e.isRefused = false) → item.Restored c o.state.2)) ∧
    c.registers.AgreeOutside b.reach o.state.2.registers := by
  intro found o
  have hno_write : ∀ e ∈ found.events, e.isWrite = false := by
    have hcareful : (takeBackup b).Careful (fun _ _ => False) fun _ => True :=
      careful_takeBackup trivial b
    exact no_write_of_writesOnly hcareful.writesOnly _ _
  have hbackup : found.Atomic c.registers c.registers
      (if GainUnknown b c.registers then .error .unexpectedState
        else .ok (Backup.of b c.registers)) := atomic_takeBackup refused b (n, c)
  -- nothing is written before the backup is complete, so an early end leaves nothing to restore
  cases hbackup with
  | refused refusal result registers =>
    have hrun : o = ⟨.error .io, found.state, found.events⟩ := run_calibrate_of_error _ result
    have hany : found.events.any Event.isRefused = true := List.any_eq_true.2 refusal
    simp only [hrun, hany, if_true]
    refine ⟨fun _ => ⟨trivial, hno_write⟩, fun h => ?_, registers ▸ .refl _⟩
    obtain ⟨e, he, href⟩ := refusal
    simp [h.1 e he] at href
  | accepted accepted result registers =>
    have hany : found.events.any Event.isRefused = false := by simpa using accepted
    by_cases hgain : GainUnknown b c.registers
    · rw [if_pos hgain] at result
      have hrun : o = ⟨.error .unexpectedState, found.state, found.events⟩ :=
        run_calibrate_of_error _ result
      simp only [hrun, hany]
      exact ⟨fun _ => ⟨rfl, hno_write⟩, fun h => (h.2 hgain).elim, registers ▸ .refl _⟩
    · rw [if_neg hgain] at result
      obtain ⟨hstate, hevents⟩ := run_calibrate_of_ok (bus refused) result
      have hfront (found : FrontEnd) (h : (Backup.of b c.registers).frontEnd = some found) :
          b.usesFrontEnd := usesFrontEnd_of_backup h
      -- from here on every step is within reach, whatever is refused of it
      have hbody := within_setUpAndConverge hfront refused found.state
      rw [registers] at hbody
      refine ⟨fun h => ?_, fun _ => ⟨_, result, hevents, cleanUp_items b c.registers, ?_⟩, ?_⟩
      · rcases h with ⟨e, he, href⟩ | h
        · simp [accepted e he] at href
        · exact (hgain h).elim
      · intro before item p after h
        have hset := cleanUp_sets hgain (item, p) (by rw [h]; simp)
        refine ⟨hset.touches.run _ _, fun haccepted => ?_⟩
        simp only [o, hstate]
        exact restored_of_accepted refused hgain h hbody haccepted
      · simp only [o, hstate]
        exact hbody.trans (agreeOutside_stateAfter refused (within_cleanUp hfront) _)

end Transceiver.Calibration
