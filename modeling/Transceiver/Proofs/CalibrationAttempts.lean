import Transceiver.Proofs.Bus
import Transceiver.Proofs.CleanUp
import Transceiver.Proofs.Histories

/-!
# The attempts of a calibration

A calibration through the front end goes down a ladder of gains, one rung with each further attempt:
first RXVGA1 by 1 dB, and when that is at its least, RXVGA2 by 3 dB. `rxvga1At` and `rxvga2At` are
the gains of the rungs, and by induction from the highest gains the adjustments lead from rung to
rung until the budget of attempts is used up. The journal notes every further attempt, so the number
of an attempt can be read off the events before it.

Apart from the loops, a calibration reads and writes the registers of its set-up only. A loop notes
its submodule, launches the engine, and waits for its value.
-/

namespace Transceiver

/-- Whether the event notes that a calibration is tried again. -/
def Event.isRetry : Event → Bool
  | .note (.retrying _ _) => true
  | _ => false

namespace Calibration

open Procedure Register

/-! ## The ladder of gains -/

/-- The gain of RXVGA1 in an attempt, the first one being number 0. -/
def rxvga1At (attempt : Nat) : Int :=
  max 5 (30 - attempt)

/-- The gain of RXVGA2 in an attempt. -/
def rxvga2At (attempt : Nat) : Int :=
  30 - 3 * ((attempt - 25 : Nat) : Int)

/-- The gains of an attempt. -/
def Gains.ofAttempt (attempt : Nat) : Gains where
  rxvga1 := rxvga1At attempt
  rxvga2 := rxvga2At attempt

/-- How many attempts a block may have. -/
def Block.attemptBudget : Block → Nat
  | .lpfTuning | .txLpf => 1
  | .rxLpf => 26
  | .rxvga2 => 36

/-- The registers hold the codes of the gains of an attempt. -/
structure GainsAt (attempt : Nat) (r : RegisterFile) : Prop where
  rxvga1 : r.get rxvga1Gain = DbStage.rxvga1.encode (rxvga1At attempt) 0
  rxvga2 : r.get rxvga2Gain = DbStage.rxvga2.encode (rxvga2At attempt) 0

theorem Block.attemptBudget_pos (b : Block) : 0 < b.attemptBudget := by
  cases b <;> decide

theorem Block.attemptBudget_le (b : Block) : b.attemptBudget ≤ 36 := by
  cases b <;> decide

/-- The first attempt is at the highest gains. -/
theorem highest_eq : Gains.highest = .ofAttempt 0 :=
  rfl

/-- RXVGA1 can be lowered 25 times. -/
theorem low_lt_rxvga1At {k : Nat} : DbStage.rxvga1.low < rxvga1At k ↔ k < 25 := by
  simp only [DbStage.low, rxvga1At]
  omega

/-- RXVGA2 can be lowered 10 times after that. -/
theorem low_lt_rxvga2At {k : Nat} : DbStage.rxvga2.low < rxvga2At k ↔ k < 35 := by
  simp only [DbStage.low, rxvga2At]
  omega

/-- The rungs of the ladder: the adjustment after an attempt leaves the gains of the next one. It
lowers one of the two, and there is one only inside the budget. -/
theorem adjustment?_ofAttempt {b : Block} {k : Nat} {a : Adjustment}
    (h : b.adjustment? (.ofAttempt k) = some a) : k + 1 < b.attemptBudget ∧
      (a = ⟨.rxvga1, rxvga1At (k + 1), .ofAttempt (k + 1)⟩ ∧ rxvga2At (k + 1) = rxvga2At k ∨
        a = ⟨.rxvga2, rxvga2At (k + 1), .ofAttempt (k + 1)⟩ ∧ rxvga1At (k + 1) = rxvga1At k) := by
  obtain ⟨hfront, ⟨hlow, ha⟩ | ⟨rfl, hleast, hlow, ha⟩⟩ := Block.adjustment?_cases h
  · have hk : k < 25 := low_lt_rxvga1At.1 hlow
    have hown : rxvga1At k - 1 = rxvga1At (k + 1) := by
      simp only [rxvga1At]
      omega
    have hsame : rxvga2At (k + 1) = rxvga2At k := by
      simp only [rxvga2At]
      omega
    refine ⟨?_, .inl ⟨?_, hsame⟩⟩
    · cases b with
      | lpfTuning | txLpf => cases hfront
      | rxLpf | rxvga2 =>
        simp only [Block.attemptBudget]
        omega
    · simpa only [Gains.ofAttempt, hown, hsame] using ha
  · have hk : ¬ k < 25 := fun hk => Int.not_lt.2 hleast (low_lt_rxvga1At.2 hk)
    have hk' : k < 35 := low_lt_rxvga2At.1 hlow
    have hown : rxvga2At k - DbStage.rxvga2Step = rxvga2At (k + 1) := by
      simp only [rxvga2At, DbStage.rxvga2Step]
      omega
    have hsame : rxvga1At (k + 1) = rxvga1At k := by
      simp only [rxvga1At]
      omega
    refine ⟨Nat.succ_lt_succ hk', .inr ⟨?_, hsame⟩⟩
    simpa only [Gains.ofAttempt, hown, hsame] using ha

/-- Whichever gain is lowered, both are those of the next attempt. -/
theorem adjusted_gains {b : Block} {k : Nat} {a : Adjustment}
    (h : b.adjustment? (.ofAttempt k) = some a) : a.gains = .ofAttempt (k + 1) := by
  obtain ⟨-, ⟨rfl, -⟩ | ⟨rfl, -⟩⟩ := adjustment?_ofAttempt h <;> rfl

/-- Nothing is left to lower exactly when the budget is used up. -/
theorem adjustment?_eq_none_iff {b : Block} {k : Nat} :
    b.adjustment? (.ofAttempt k) = none ↔ b.attemptBudget ≤ k + 1 := by
  constructor
  · intro hnone
    cases b with
    | lpfTuning | txLpf => exact Nat.succ_le_succ k.zero_le
    | rxLpf =>
      have hleast := (Block.least_of_adjustment?_eq_none hnone rfl).1
      have hk : ¬ k < 25 := fun hk => Int.not_lt.2 hleast (low_lt_rxvga1At.2 hk)
      exact Nat.succ_le_succ (Nat.not_lt.1 hk)
    | rxvga2 =>
      have hleast := (Block.least_of_adjustment?_eq_none hnone rfl).2 rfl
      have hk : ¬ k < 35 := fun hk => Int.not_lt.2 hleast (low_lt_rxvga2At.2 hk)
      exact Nat.succ_le_succ (Nat.not_lt.1 hk)
  · intro hle
    cases hadjust : b.adjustment? (.ofAttempt k) with
    | none => rfl
    | some a => exact absurd (adjustment?_ofAttempt hadjust).1 (Nat.not_lt.2 hle)

/-- The adjustments of the ladder stay in range. -/
theorem clamp_adjusted {b : Block} {k : Nat} {a : Adjustment}
    (h : b.adjustment? (.ofAttempt k) = some a) : a.stage.clamp a.gain = a.gain := by
  obtain ⟨hk, ⟨rfl, -⟩ | ⟨rfl, -⟩⟩ := adjustment?_ofAttempt h <;>
    have hbudget := b.attemptBudget_le <;>
    simp only [DbStage.clamp, DbStage.low, DbStage.high, rxvga1At, rxvga2At] <;>
    omega

/-- A gain in range is stored in the register of its stage, and nothing is noted. -/
theorem setDb_eq_writeByte {stage : DbStage} (h : stage = .rxvga1 ∨ stage = .rxvga2) {gain : Int}
    (hgain : stage.clamp gain = gain) :
    Gain.setDb stage gain = (do
      writeByte stage.address (stage.encode gain 0)
      return stage.effective gain) := by
  have hnote : Gain.noteClamped stage (stage.clamp gain) gain = pure () := by
    rw [Gain.noteClamped, if_pos hgain]
  rw [Gain.setDb, hnote, hgain]
  rcases h with rfl | rfl <;> rfl

/-- Storing an adjusted gain takes the registers down by one rung. -/
theorem GainsAt.next {b : Block} {k : Nat} {a : Adjustment}
    (h : b.adjustment? (.ofAttempt k) = some a) {r : RegisterFile} (hr : GainsAt k r) :
    GainsAt (k + 1) (r.set a.stage.address (a.stage.encode a.gain 0)) := by
  have hne : DbStage.rxvga1.address ≠ DbStage.rxvga2.address := by decide
  obtain ⟨-, ⟨rfl, hsame⟩ | ⟨rfl, hsame⟩⟩ := adjustment?_ofAttempt h
  · refine ⟨RegisterFile.get_set_self _ _ _, ?_⟩
    rw [hsame, ← hr.rxvga2]
    exact RegisterFile.get_set_of_ne _ hne _
  · refine ⟨?_, RegisterFile.get_set_self _ _ _⟩
    rw [hsame, ← hr.rxvga1]
    exact RegisterFile.get_set_of_ne _ hne.symm _

/-- How many attempts have been given up among some events. -/
def retryCount (events : List Event) : Nat :=
  events.countP Event.isRetry

@[simp] theorem retryCount_append (left right : List Event) :
    retryCount (left ++ right) = retryCount left + retryCount right :=
  List.countP_append

theorem retryCount_eq_zero {events : List Event} (h : ∀ e ∈ events, e.isRetry = false) :
    retryCount events = 0 :=
  List.countP_eq_zero.2 fun e he => by simp [h e he]

/-! ## The parts of a loop -/

/-- The four registers of a block. -/
def Block.ports (b : Block) : List Address := [
  (Dc.value b).address, (Dc.busy b).address, (Dc.count b).address, (Dc.submodule b).address]

/-- Addresses a submodule, latches the count and starts the engine. -/
def launch (b : Block) (submodule : Nat) (count : BitVec 6) : Procedure Unit := do
  let old ← readByte (Dc.submodule b).address
  let control := (Dc.submodule b).set old (BitVec.ofNat 3 submodule)
  writeByte (Dc.submodule b).address control
  writeByte (Dc.count b).address ((Dc.count b).set 0 count)
  let control := (Dc.load b).put control true
  writeByte (Dc.load b).address control
  let control := (Dc.load b).put control false
  writeByte (Dc.load b).address control
  let control := (Dc.start b).put control true
  writeByte (Dc.start b).address control
  writeByte (Dc.start b).address ((Dc.start b).put control false)

/-- Putting a strobe of the control register leaves the submodule addressed. -/
theorem get_submodule_put_load (b : Block) (control : Byte) (on : Bool) :
    (Dc.submodule b).get ((Dc.load b).put control on) = (Dc.submodule b).get control :=
  BitField.get_put_of_disjoint (by cases b <;> decide) _ _

theorem get_submodule_put_start (b : Block) (control : Byte) (on : Bool) :
    (Dc.submodule b).get ((Dc.start b).put control on) = (Dc.submodule b).get control :=
  BitField.get_put_of_disjoint (by cases b <;> decide) _ _

/-- Waits for the value of a calibration that has been started. -/
def awaitValue (b : Block) : Procedure (Option (BitVec 6)) := do
  if ← awaitDone b pollBudget then
    let value ← load (Dc.value b)
    log (.calibrated value)
    return some value
  else
    log .loopTimedOut
    return none

/-- A loop is a launch and a wait. -/
theorem settle_eq (b : Block) (submodule : Nat) (count : BitVec 6) :
    settle b submodule count = (do
      log (.calibrating b submodule)
      launch b submodule count
      awaitValue b) := by
  simp only [settle, launch, awaitValue, LawfulMonad.bind_assoc]

/-! ## The set-up -/

/-- The registers of the comparators. -/
def comparatorRegisters : List Address :=
  [txDac, txLpfComparator, rxLpfComparator, rxvga2Comparator]

/-- The registers that show whether a block is powered. -/
def poweredRegisters : List Address :=
  clockEnable :: (comparatorRegisters ++ [rxInput, Register.rxTermination, lnaControl])

/-- The registers of the gains that change with the attempts. -/
def gainRegisters : List Address := [rxvga1Gain, rxvga2Gain]

/-- The registers that route the stages of RXVGA2. -/
def routingRegisters : List Address := [rxvga2Control, rxvga2Stages]

/-- The registers that the set-up shows in. -/
def setUpRegisters : List Address := poweredRegisters ++ gainRegisters ++ routingRegisters

section Emits

variable {E : Event → Prop} (hread : ∀ address ∈ setUpRegisters, ∀ answer, E (.read address answer))
  (hwrite : ∀ address ∈ setUpRegisters, ∀ value accepted, E (.write address value accepted))
  (hnote : ∀ stage gain, E (.note (.clampedGain stage gain)))

include hwrite in
include hnote in
/-- Setting a receive gain writes the register of the stage, and may note that the request is
clamped. -/
theorem emits_setDb {stage : DbStage} (h : stage = .rxvga1 ∨ stage = .rxvga2) (request : Int) :
    (Gain.setDb stage request).Emits E := by
  have hclamped : (Gain.noteClamped stage (stage.clamp request) request).Emits E := by
    unfold Gain.noteClamped
    split
    · exact emits_pure ()
    · exact emits_log (hnote _ _)
  have hstore : (Gain.store stage (stage.clamp request)).Emits E := by
    rcases h with rfl | rfl <;> exact emits_writeByte (hwrite _ (by decide) _)
  exact hclamped.bind fun _ => hstore.bind fun _ => emits_pure _

include hread

/-- The front end is only read for its backup. -/
theorem emits_readFrontEnd : readFrontEnd.Emits E := by
  have hgain : Gain.readLna.Emits E := by
    refine (emits_load (hread _ (by decide))).bind fun bits => ?_
    split
    · exact emits_fail _
    · exact emits_pure _
  refine (emits_readByte (hread _ (by decide))).bind fun _ => ?_
  refine (emits_readByte (hread _ (by decide))).bind fun _ => hgain.bind fun _ => ?_
  refine ((emits_readByte (hread _ (by decide))).map _).bind fun _ => ?_
  exact ((emits_readByte (hread _ (by decide))).map _).bind fun _ => emits_pure _

theorem emits_takeBackup (b : Block) : (takeBackup b).Emits E := by
  refine (emits_readByte (hread _ (by decide))).bind fun _ => ?_
  split
  · exact (emits_readFrontEnd hread).bind fun _ => emits_pure _
  · exact emits_pure _

include hwrite

theorem emits_putSetUp (flag : Flag) (h : flag.address ∈ setUpRegisters) (on : Bool) :
    (put flag on).Emits E :=
  emits_assign (hread _ h) fun _ => hwrite _ h _

theorem emits_setLna (gain : Amplifier.LnaGain) : (Gain.setLna gain).Emits E := by
  cases gain with
  | unknown => exact emits_fail _
  | bypass | mid | max => exact emits_assign (hread _ (by decide)) fun _ => hwrite _ (by decide) _

/-- Routing writes the registers of the stages of RXVGA2, if anything. -/
theorem emits_routeStages (b : Block) (submodule : Nat) : (routeStages b submodule).Emits E := by
  have hput := emits_putSetUp hread hwrite Rx.vga2Decode (by decide)
  have hstages (value : Byte) : (writeByte rxvga2Stages value).Emits E :=
    emits_writeByte (hwrite _ (by decide) _)
  unfold routeStages
  split
  · exact (hput _).bind fun _ => hstages _
  · exact (hput _).bind fun _ => hstages _
  · exact hstages _
  · exact emits_pure ()
  · exact emits_pure ()
  · exact emits_fail _
  all_goals exact emits_pure ()

include hnote

/-- The set-up writes nothing but the registers that it shows in. -/
theorem emits_setUp (b : Block) (backup : Backup) : (setUp b backup).Emits E := by
  have hput := emits_putSetUp hread hwrite
  have hbyte (address : Address) (haddress : address ∈ setUpRegisters) (value : Byte) :
      (writeByte address value).Emits E := emits_writeByte (hwrite _ haddress _)
  have hcomparators : (powerComparators b).Emits E := by
    cases b with
    | lpfTuning => exact emits_pure ()
    | txLpf => exact (hput _ (by decide) _).bind fun _ => hput _ (by decide) _
    | rxLpf => exact hput _ (by decide) _
    | rxvga2 => exact emits_assign (hread _ (by decide)) fun _ => hwrite _ (by decide) _
  refine (hbyte _ (by decide) _).bind fun _ => hcomparators.bind fun _ => ?_
  split
  · refine (hbyte _ (by decide) _).bind fun _ => (hbyte _ (by decide) _).bind fun _ => ?_
    refine (emits_setLna hread hwrite _).bind fun _ => ?_
    refine (emits_setDb hwrite hnote (.inl rfl) _).bind fun _ => ?_
    exact (emits_setDb hwrite hnote (.inr rfl) _).bind fun _ => emits_pure ()
  · exact emits_pure ()

/-- The clean-up writes the registers that the set-up has written. -/
theorem emits_cleanUp (b : Block) (backup : Backup) : ∀ p ∈ cleanUp b backup, p.Emits E := by
  have hput := emits_putSetUp hread hwrite
  have hbyte (address : Address) (haddress : address ∈ setUpRegisters) (value : Byte) :
      (writeByte address value).Emits E := emits_writeByte (hwrite _ haddress _)
  have htearDown : ∀ step ∈ tearDownSteps b, step.2.Emits E := by
    cases b with
    | lpfTuning => simp [tearDownSteps]
    | txLpf =>
      simp only [tearDownSteps, List.forall_mem_cons]
      exact ⟨hput _ (by decide) _, hput _ (by decide) _, by simp⟩
    | rxLpf =>
      simp only [tearDownSteps, List.forall_mem_cons]
      exact ⟨hput _ (by decide) _, by simp⟩
    | rxvga2 =>
      simp only [tearDownSteps, List.forall_mem_cons]
      exact ⟨hbyte _ (by decide) _, hput _ (by decide) _,
        emits_assign (hread _ (by decide)) fun _ => hwrite _ (by decide) _, by simp⟩
  have hrestore : ∀ step ∈ restoreSteps backup, step.2.Emits E := by
    rcases backup with ⟨clocks, _ | found⟩
    · simp only [restoreSteps, List.forall_mem_cons]
      exact ⟨hbyte _ (by decide) _, by simp⟩
    · simp only [restoreSteps, frontEndItems, FrontEnd.restoration, List.zip_cons_cons,
        List.forall_mem_cons]
      exact ⟨hbyte _ (by decide) _, hbyte _ (by decide) _, hbyte _ (by decide) _,
        emits_setLna hread hwrite _, (emits_setDb hwrite hnote (.inl rfl) _).map _,
        (emits_setDb hwrite hnote (.inr rfl) _).map _, by simp⟩
  intro p hp
  obtain ⟨step, hstep, rfl⟩ := List.mem_map.1 hp
  exact (List.mem_append.1 hstep).elim (htearDown step) (hrestore step)

end Emits

section Adopt

variable {E : Event → Prop} (hread : ∀ h answer, E (.read (Lpf.dcLevel h).address answer))
  (hwrite : ∀ h value accepted, E (.write (Lpf.dcLevel h).address value accepted))

include hread hwrite

/-- Using a value reads and writes the DC levels of the filters only. -/
theorem emits_adopt (b : Block) (value : BitVec 6) : (adopt b value).Emits E := by
  have hassign (h : Half) : (assign (Lpf.dcLevel h) value).Emits E :=
    emits_assign (hread h) fun _ => hwrite h _
  cases b with
  | lpfTuning => exact (hassign .tx).bind fun _ => hassign .rx
  | txLpf | rxLpf | rxvga2 => exact emits_pure ()

/-- So does using a second value, but for the note on a zero. -/
theorem emits_adoptSecond (hnote : E (.note .keptBadValue)) (b : Block) (value : BitVec 6) :
    (adoptSecond b value).Emits E := by
  unfold adoptSecond
  split
  · exact emits_log hnote
  · exact emits_adopt hread hwrite b value

end Adopt

section Loop

variable {E : Event → Prop} {b : Block}

/-- A launch reads the control register once and writes the control and the count register. -/
theorem emits_launch (hread : ∀ answer, E (.read (Dc.submodule b).address answer))
    (hcontrol : ∀ value accepted, E (.write (Dc.submodule b).address value accepted))
    (hcount : ∀ value accepted, E (.write (Dc.count b).address value accepted)) (submodule : Nat)
    (count : BitVec 6) : (launch b submodule count).Emits E := by
  have hstrobe (control : Byte) : (writeByte (Dc.submodule b).address control).Emits E :=
    emits_writeByte (hcontrol control)
  refine (emits_readByte hread).bind fun old => (hstrobe _).bind fun _ => ?_
  refine (emits_writeByte (hcount _)).bind fun _ => (hstrobe _).bind fun _ => ?_
  exact (hstrobe _).bind fun _ => (hstrobe _).bind fun _ => hstrobe _

/-- A wait reads the status of its block, and in the end the value. -/
theorem emits_awaitValue (hbusy : ∀ answer, E (.read (Dc.busy b).address answer))
    (hvalue : ∀ answer, E (.read (Dc.value b).address answer))
    (hpause : ∀ microseconds, E (.pause microseconds))
    (hcalibrated : ∀ value, E (.note (.calibrated value))) (hexpired : E (.note .loopTimedOut)) :
    (awaitValue b).Emits E := by
  have hdone (budget : Nat) : (awaitDone b budget).Emits E := by
    induction budget with
    | zero => exact emits_pure false
    | succ budget ih =>
      refine (emits_readByte hbusy).bind fun status => ?_
      split
      · exact Emits.bind ⟨hpause _, trivial⟩ fun _ => ih
      · exact emits_pure true
  refine (hdone pollBudget).bind fun finished => ?_
  split
  · refine (emits_load hvalue).bind fun value => ?_
    exact (emits_log (hcalibrated value)).bind fun _ => emits_pure _
  · exact (emits_log hexpired).bind fun _ => emits_pure _

end Loop

end Calibration

end Transceiver
