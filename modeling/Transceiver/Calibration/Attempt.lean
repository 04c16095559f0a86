import Transceiver.Calibration.Loop
import Transceiver.Gain

/-!
# Calibration attempts

An attempt calibrates the submodules of a block one after the other and stops at the first one
whose loop does not finish. A block that is calibrated through the receive front end is then tried
again at a lower gain: first RXVGA1 goes down in steps of 1 dB, and for RXVGA2, when RXVGA1 is at
its least, its own gain in steps of 3 dB. No number of attempts is given beforehand. They come to an
end because every adjustment takes some of the `headroom` that the gains have above their least.
-/

namespace Transceiver.Calibration

open Procedure Register

/-- The count that a loop starts from. -/
def startCount : BitVec 6 := 31

/-- A result equal to the starting count is suspect. -/
def suspectValue : BitVec 6 := 31

/-- The stage gains of RXVGA2. -/
def stageGains (a b : BitVec 4) : Byte :=
  Rx.vga2StageB.set (Rx.vga2StageA.set 0 a) b

/-- Routes the stages of RXVGA2 for one of its submodules: 0 is the DC reference and goes back to
the gains of power on, 1 and 2 are stage A, 3 and 4 are stage B. The submodules run in order, so 2
and 4 find their stage routed, and there are no more. The other blocks have nothing to route. -/
def routeStages (b : Block) (submodule : Nat) : Procedure Unit :=
  match b, submodule with
  | .rxvga2, 0 => do
    put Rx.vga2Decode false
    writeByte rxvga2Stages (stageGains 1 0)
  | .rxvga2, 1 => do
    put Rx.vga2Decode true
    writeByte rxvga2Stages (stageGains 6 0)
  | .rxvga2, 3 => writeByte rxvga2Stages (stageGains 0 6)
  | .rxvga2, 2 | .rxvga2, 4 => pure ()
  | .rxvga2, _ => fail .unexpectedState
  | .lpfTuning, _ | .txLpf, _ | .rxLpf, _ => pure ()

/-- Uses a result outside its block: the filter tuning sets the DC level of both filters. -/
def adopt (b : Block) (value : BitVec 6) : Procedure Unit :=
  match b with
  | .lpfTuning => do
    assign (Lpf.dcLevel .tx) value
    assign (Lpf.dcLevel .rx) value
  | .txLpf | .rxLpf | .rxvga2 => pure ()

/-- Uses the result of a second loop. A zero stays in the block and is not adopted. -/
def adoptSecond (b : Block) (value : BitVec 6) : Procedure Unit :=
  if value = 0 then log .keptBadValue else adopt b value

/-- Calibrates one submodule and tells whether its loop finished. A suspect result is calibrated
once more from zero, and what comes of that is final. -/
def calibrateSubmodule (b : Block) (submodule : Nat) : Procedure Bool := do
  routeStages b submodule
  match ← settle b submodule startCount with
  | none => return false
  | some first =>
    if first = suspectValue then
      log .suspectValue
      match ← settle b submodule 0 with
      | none => return false
      | some second =>
        adoptSecond b second
        return true
    else
      adopt b first
      return true

/-- Calibrates submodules in order and tells whether all their loops finished. -/
def calibrateAll (b : Block) : (submodules : List Nat) → Procedure Bool
  | [] => return true
  | submodule :: rest => do
    if ← calibrateSubmodule b submodule then
      calibrateAll b rest
    else
      return false

/-- One attempt at a block. -/
def attemptBlock (b : Block) : Procedure Bool :=
  calibrateAll b (List.range b.submodules)

/-! ## Lowering the gains -/

/-- The gains of the two receive amplifiers in dB, as an attempt finds them. -/
structure Gains where
  rxvga1 : Int
  rxvga2 : Int
deriving Repr, DecidableEq

namespace Gains

/-- The gains of a first attempt. -/
def highest : Gains where
  rxvga1 := DbStage.rxvga1.high
  rxvga2 := DbStage.rxvga2.high

/-- How far the gains are above their least, in dB. -/
def headroom (gains : Gains) : Nat :=
  (gains.rxvga1 - DbStage.rxvga1.low).toNat + (gains.rxvga2 - DbStage.rxvga2.low).toNat

end Gains

/-- What changes for a further attempt: one stage gets a lower gain. -/
structure Adjustment where
  stage : DbStage
  gain : Int
  /-- The gains of both amplifiers afterwards. -/
  gains : Gains
deriving Repr, DecidableEq

/-- The adjustment of the gains for a further attempt at a block, unless there is nothing left to
lower. Only for RXVGA2 its own gain is lowered too. -/
def Block.adjustment? (b : Block) (gains : Gains) : Option Adjustment :=
  match b with
  | .lpfTuning | .txLpf => none
  | .rxLpf | .rxvga2 =>
    if DbStage.rxvga1.low < gains.rxvga1 then
      let gain := gains.rxvga1 - 1
      some ⟨.rxvga1, gain, { gains with rxvga1 := gain }⟩
    else if b = .rxvga2 ∧ DbStage.rxvga2.low < gains.rxvga2 then
      let gain := gains.rxvga2 - DbStage.rxvga2Step
      some ⟨.rxvga2, gain, { gains with rxvga2 := gain }⟩
    else
      none

/-- All that an adjustment can be: RXVGA1 comes first, and a stage at its least is left alone. -/
theorem Block.adjustment?_cases {b : Block} {gains : Gains} {a : Adjustment}
    (h : b.adjustment? gains = some a) : b.usesFrontEnd ∧
      (DbStage.rxvga1.low < gains.rxvga1 ∧
          a = ⟨.rxvga1, gains.rxvga1 - 1, { gains with rxvga1 := gains.rxvga1 - 1 }⟩ ∨
        b = .rxvga2 ∧ gains.rxvga1 ≤ DbStage.rxvga1.low ∧ DbStage.rxvga2.low < gains.rxvga2 ∧
          a = ⟨.rxvga2, gains.rxvga2 - DbStage.rxvga2Step,
            { gains with rxvga2 := gains.rxvga2 - DbStage.rxvga2Step }⟩) := by
  have hfront : b.usesFrontEnd := by
    cases b with
    | lpfTuning | txLpf => cases h
    | rxLpf | rxvga2 => rfl
  refine ⟨hfront, ?_⟩
  unfold adjustment? at h
  split at h
  · cases h
  · cases h
  all_goals
    split at h
    · next hlow => exact .inl ⟨hlow, (Option.some.inj h).symm⟩
    · next hleast =>
      split at h
      · next hown => exact .inr ⟨hown.1, Int.not_lt.1 hleast, hown.2, (Option.some.inj h).symm⟩
      · cases h

/-- Without an adjustment all gains that the block may lower are at their least. -/
theorem Block.least_of_adjustment?_eq_none {b : Block} {gains : Gains}
    (h : b.adjustment? gains = none) (hfront : b.usesFrontEnd) :
    gains.rxvga1 ≤ DbStage.rxvga1.low ∧ (b = .rxvga2 → gains.rxvga2 ≤ DbStage.rxvga2.low) := by
  unfold adjustment? at h
  split at h
  · cases hfront
  · cases hfront
  all_goals
    split at h
    · cases h
    · next hleast =>
      split at h
      · cases h
      · next hown => exact ⟨Int.not_lt.1 hleast, fun hb => Int.not_lt.1 fun hlow => hown ⟨hb, hlow⟩⟩

/-- Only the gains of the receive VGAs are ever lowered. -/
theorem Block.adjusted_stage {b : Block} {gains : Gains} {a : Adjustment}
    (h : b.adjustment? gains = some a) : a.stage = .rxvga1 ∨ a.stage = .rxvga2 := by
  obtain ⟨-, ⟨-, rfl⟩ | ⟨-, -, -, rfl⟩⟩ := adjustment?_cases h
  · exact .inl rfl
  · exact .inr rfl

/-- Every adjustment takes headroom away. -/
theorem Block.headroom_adjustment? {b : Block} {gains : Gains} {a : Adjustment}
    (h : b.adjustment? gains = some a) : a.gains.headroom < gains.headroom := by
  obtain ⟨-, ⟨hlow, rfl⟩ | ⟨-, -, hlow, rfl⟩⟩ := adjustment?_cases h <;>
    simp only [Gains.headroom, DbStage.rxvga2Step] <;> omega

/-- So what holds of gains once it holds of the adjusted ones holds of all gains. -/
theorem Block.adjustment_induction (b : Block) {P : Gains → Prop}
    (step : ∀ gains, (∀ a, b.adjustment? gains = some a → P a.gains) → P gains) (gains : Gains) :
    P gains :=
  step gains fun a _h => b.adjustment_induction step a.gains
termination_by gains.headroom
decreasing_by exact headroom_adjustment? _h

/-! ## All attempts -/

/-- Attempts a block until its loops finish, adjusting the gains before each further attempt. -/
def converge (b : Block) (gains : Gains) : Procedure Unit := do
  if ← attemptBlock b then
    return ()
  else
    match _h : b.adjustment? gains with
    | none =>
      log .retriesExhausted
      log (.calibrationFailed b)
      fail .unexpectedState
    | some a =>
      log (.retrying a.stage a.gain)
      let _ ← Gain.setDb a.stage a.gain
      converge b a.gains
termination_by gains.headroom
decreasing_by exact Block.headroom_adjustment? _h

section Converge

variable {b : Block} {gains : Gains}

/-- Where nothing is left to lower, an attempt that fails is the last. -/
theorem converge_of_none (h : b.adjustment? gains = none) :
    converge b gains = (do
      if ← attemptBlock b then
        return ()
      else
        log .retriesExhausted
        log (.calibrationFailed b)
        fail .unexpectedState) := by
  rw [converge]
  congr 1
  funext finished
  split
  · rfl
  · split
    · rfl
    · next a ha => cases h.symm.trans ha

/-- Where there is an adjustment, it is made after an attempt that fails, and the attempts go on
with the gains that it leaves. -/
theorem converge_of_some {a : Adjustment} (h : b.adjustment? gains = some a) :
    converge b gains = (do
      if ← attemptBlock b then
        return ()
      else
        log (.retrying a.stage a.gain)
        let _ ← Gain.setDb a.stage a.gain
        converge b a.gains) := by
  rw [converge]
  congr 1
  funext finished
  split
  · rfl
  · split
    · next hnone => cases h.symm.trans hnone
    · next a' ha' =>
      obtain rfl : a = a' := Option.some.inj (h.symm.trans ha')
      rfl

end Converge

end Transceiver.Calibration
