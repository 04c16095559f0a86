import Transceiver.Dump
import Transceiver.Gain
import Transceiver.Loopback
import Transceiver.Sampling
import Transceiver.Proofs.Writes

/-!
# Careful operations

Every operation that changes or reads settings is careful, as its parts are: after a refused access
it accesses nothing more. The exceptions clean up: tuning to a frequency, which switches the clocks
of the modulators off again, and with it the change of the loopback mode.
-/

namespace Transceiver

open Procedure Register

variable {α : Type} {W : Address → Byte → Prop} {silent : Fault → Prop}

/-! ## Notes about faults -/

namespace Procedure

/-- Notes a fault of a procedure and lets it pass. -/
def noting (entry : Note) (p : Procedure α) : Procedure α := do
  match ← p.attempt with
  | .ok a => return a
  | .error fault =>
    log entry
    fail fault

/-- A note about a fault does not keep a procedure from giving up. -/
theorem GivesUp.noting {fault : Fault} {p : Procedure α} (h : p.GivesUp fault) (entry : Note) :
    (p.noting entry).GivesUp fault := by
  induction p with
  | done result =>
    obtain rfl : result = .error fault := h
    rfl
  | read address next ih => exact h.elim
  | write address value next ih => exact h.elim
  | note entry next ih => exact ih h
  | pause microseconds next ih => exact ih h

/-- A careful procedure stays careful with its faults noted, if the note is no alarm. -/
theorem Careful.noting {p : Procedure α} (hp : p.Careful W silent) {entry : Note}
    (h : entry.isAlarm = false) : (p.noting entry).Careful W silent := by
  induction p with
  | done result =>
    cases result with
    | ok a => exact careful_pure a
    | error fault => exact (careful_log h).bind fun _ _ => careful_fail (hp fault rfl)
  | read address next ih => exact ⟨hp.1.noting entry, fun value => ih _ (hp.2 value)⟩
  | write address value next ih => exact ⟨hp.1, hp.2.1.noting entry, ih _ hp.2.2⟩
  | note other next ih =>
    unfold Careful at hp
    show if other.isAlarm then (next.noting entry).GivesUp .unexpectedState
      else (next.noting entry).Careful W silent
    split at hp
    · next ha =>
      rw [if_pos ha]
      exact hp.noting entry
    · next ha =>
      rw [if_neg ha]
      exact ih hp
  | pause microseconds next ih => exact ih hp

end Procedure

/-! ## Loopback -/

namespace Loopback

theorem careful_current : current.Careful W silent := by
  refine (careful_readByte _).bind fun _ _ => ?_
  refine (careful_readByte _).bind fun _ _ => ?_
  exact careful_pure _

theorem careful_isEngaged : isEngaged.Careful W silent :=
  careful_current.bind fun _ _ => careful_pure _

end Loopback

/-! ## Tuning -/

namespace Synthesizer

/-- The one fault in reading a tuning voltage is the code that stands for none. -/
theorem TuningVoltage.ofCode_error {code : Nat} {fault : Fault}
    (h : TuningVoltage.ofCode code = .error fault) : fault = .unexpectedState := by
  unfold TuningVoltage.ofCode at h
  split at h <;> simp_all

section Tuning

variable {h : Half} (hW : ∀ value, W (Pll.vcoCap h).address value)

include hW

/-- A code that stands for no tuning voltage is noted as an alarm. -/
theorem careful_probe (cap : Byte) (code : Nat) : (probe h cap code).Careful W silent := by
  refine (careful_writeByte (hW _)).bind fun _ _ => (careful_load _).bind fun shown _ => ?_
  cases hv : TuningVoltage.ofCode shown.toNat with
  | ok voltage => exact careful_pure voltage
  | error fault =>
    obtain rfl := TuningVoltage.ofCode_error hv
    exact careful_alarm rfl

/-- The search can run out of probes, which is no fault. -/
theorem careful_search (cap : Byte) (budget code step : Nat) :
    (search h cap budget code step).Careful W silent := by
  -- the code and the step change from probe to probe
  induction budget generalizing code step with
  | zero => exact careful_pure none
  | succ budget ih =>
    refine (careful_probe hW cap code).bind fun voltage _ => ?_
    cases voltage with
    | normal => exact (careful_log rfl).bind fun _ _ => careful_pure _
    | low => exact (careful_log rfl).bind fun _ _ => ih _ _
    | high => exact (careful_log rfl).bind fun _ _ => ih _ _

/-- Walking down reports every refusal, one that happens deep in the walk too. -/
theorem careful_walkDown (cap : Byte) (code : Nat) : (walkDown h cap code).Careful W silent := by
  induction code with
  | zero => exact careful_pure 0
  | succ code ih =>
    refine (careful_probe hW cap code).bind fun voltage _ => ?_
    split
    · exact careful_pure _
    · exact ih

/-- So does walking up. -/
theorem careful_walkUp (cap : Byte) (room code : Nat) :
    (walkUp h cap room code).Careful W silent := by
  induction room generalizing code with
  | zero => exact careful_pure code
  | succ room ih =>
    refine (careful_probe hW cap (code + 1)).bind fun voltage _ => ?_
    split
    · exact careful_pure code
    · exact ih (code + 1)

/-- And so does the search for the upper end of the window. -/
theorem careful_upperEnd (cap : Byte) (code : Nat) : (upperEnd h cap code).Careful W silent := by
  refine (careful_probe hW cap code).bind fun voltage _ => ?_
  split
  · exact careful_pure code
  · exact careful_walkUp hW cap _ code

/-- Tuning ends in an alarm if the search finds no lock. -/
theorem careful_tune : (tune h).Careful W silent := by
  refine (careful_readByte _).bind fun cap _ => (careful_search hW cap _ _ _).bind fun found _ => ?_
  cases found with
  | none => exact careful_alarm rfl
  | some code =>
    refine (careful_walkDown hW cap code).bind fun lower _ => (careful_log rfl).bind fun _ _ => ?_
    refine (careful_upperEnd hW cap code).bind fun upper _ => (careful_log rfl).bind fun _ _ => ?_
    refine (careful_log rfl).bind fun _ _ => (careful_probe hW cap _).bind fun voltage _ => ?_
    cases voltage with
    | normal => exact careful_pure ()
    | low => exact careful_alarm rfl
    | high => exact careful_alarm rfl

end Tuning

/-! ## Programming -/

/-- The registers that programming a PLL writes. -/
def programmed (h : Half) : List Address := [
  (Pll.freqSel h).address, (Pll.nintHigh h).address, (Pll.nfracHigh h).address,
  (Pll.nfracMid h).address, (Pll.nfracLow h).address, (Pll.chargePump h).address,
  (Pll.offsetUp h).address, (Pll.offsetDown h).address, (Pll.vcoCap h).address]

section Programming

variable {h : Half} (hW : ∀ address ∈ programmed h, ∀ value, W address value)

include hW

/-- The band code is written after two reads, and each of the three accesses is reported if it is
refused. -/
theorem careful_writeBand (hz : Nat) (code : BitVec 6) :
    (writeBand h hz code).Careful W silent := by
  have hsel := hW (Pll.freqSel h).address (by simp [programmed])
  refine (careful_readByte _).bind fun old _ => Loopback.careful_isEngaged.bind fun engaged _ => ?_
  split
  · exact careful_writeByte (hsel _)
  · exact careful_writeByte (hsel _)

theorem careful_writeDividers (nint nfrac : Nat) :
    (writeDividers h nint nfrac).Careful W silent := by
  refine (careful_writeByte (hW _ (by simp [programmed]) _)).bind fun _ _ => ?_
  refine (careful_writeByte (hW _ (by simp [programmed]) _)).bind fun _ _ => ?_
  refine (careful_writeByte (hW _ (by simp [programmed]) _)).bind fun _ _ => ?_
  exact careful_writeByte (hW _ (by simp [programmed]) _)

theorem careful_setCurrents : (setCurrents h).Careful W silent := by
  refine (careful_assign fun _ => hW _ (by simp [programmed]) _).bind fun _ _ => ?_
  refine (careful_assign fun _ => hW _ (by simp [programmed]) _).bind fun _ _ => ?_
  exact careful_assign fun _ => hW _ (by simp [programmed]) _

/-- Everything that programming a half writes is one of its own registers. -/
theorem careful_program (hz : Nat) (d : Divider) : (program h hz d).Careful W silent := by
  refine (careful_writeBand hW hz d.freqSel).bind fun _ _ => ?_
  refine (careful_writeDividers hW d.nint d.nfrac).bind fun _ _ => ?_
  refine (careful_setCurrents hW).bind fun _ _ => ?_
  exact careful_tune (hW _ (by simp [programmed]))

end Programming

theorem careful_clockModulators (hW : ∀ value, W clockEnable value) (on : Bool) :
    (clockModulators on).Careful W silent :=
  careful_modify fun _ => hW _

/-- Tuning to a frequency, with the fault of the modulator clocks set apart. -/
theorem setFrequency_eq (h : Half) (request : Nat) :
    setFrequency h request = (do
      noteClamped (clampHz request) request
      log (.dividers h (Divider.ofHz (clampHz request)))
      (clockModulators true).noting .modulatorsFailed
      forceAll [program h (clampHz request) (Divider.ofHz (clampHz request)), clockModulators false]
      return Divider.ofHz (clampHz request)) := by
  simp only [setFrequency, noting, LawfulMonad.bind_assoc]
  congr
  funext _
  congr
  funext _
  congr
  funext result
  rcases result with fault | _ <;> rfl

/-- A request that is clamped is noted, which is no access. -/
theorem careful_noteClamped (hz request : Nat) : (noteClamped hz request).Careful W silent := by
  unfold noteClamped
  split
  · exact careful_pure ()
  · exact careful_log rfl

/-! ## Reading back -/

theorem careful_readDividers (h : Half) : (readDividers h).Careful W silent := by
  refine (careful_readByte _).bind fun _ _ => ?_
  refine (careful_readByte _).bind fun _ _ => ?_
  refine (careful_readByte _).bind fun _ _ => ?_
  refine (careful_readByte _).bind fun _ _ => ?_
  exact careful_pure _

/-- Dividers are refused for one reason, a band code that stands for no VCO divider. -/
theorem decode_error {h : Half} {packed : PackedDividers} {code : BitVec 6} {fault : Fault}
    (hd : decode h packed code = .error fault) : fault = .unexpectedState := by
  simp only [decode, vcoDivider] at hd
  split at hd
  · cases hd
  · exact (Except.error.inj hd).symm

/-- Reading the dividers can meet such a code. -/
theorem careful_dividers (hs : silent .unexpectedState) (h : Half) :
    (dividers h).Careful W silent := by
  refine (careful_readDividers h).bind fun packed _ => (careful_load _).bind fun code _ => ?_
  intro fault hfault
  exact decode_error hfault ▸ hs

/-- Reading a frequency can meet one, or fail in its arithmetic. -/
theorem careful_frequencyHz (hs : silent .unexpectedState)
    (ha : ∀ cause, silent (.arithmetic cause)) (h : Half) :
    (frequencyHz h).Careful W silent := by
  refine (careful_dividers hs h).bind fun d _ => ?_
  split
  · exact careful_pure _
  · exact careful_fail (ha _)

/-- Selecting the band writes at most one register, of a power amplifier or of the LNA. -/
theorem careful_selectBand {h : Half} {hz : Nat} (hpa : ∀ value, W paControl value)
    (hlna : ∀ value, W lnaControl value) : (selectBand h hz).Careful W silent := by
  refine Loopback.careful_isEngaged.bind fun engaged _ => ?_
  split
  · exact careful_pure ()
  · cases h with
    | rx => exact careful_assign fun _ => hlna _
    | tx => exact careful_modify fun _ => hpa _

end Synthesizer

/-! ## Filters -/

namespace LowPass

theorem careful_mode (h : Half) : (mode h).Careful W silent := by
  refine (careful_readByte _).bind fun control _ => (careful_readByte _).bind fun bypass _ => ?_
  split
  · exact careful_pure _
  · exact careful_alarm rfl

end LowPass

/-! ## Amplifiers and gains -/

namespace Amplifier

theorem careful_powerAmp : powerAmp.Careful W silent := by
  refine (careful_readByte _).bind fun control _ => ?_
  split
  · exact careful_pure _
  · exact careful_alarm rfl

end Amplifier

namespace Gain

/-- A request out of range is clamped and noted, so setting a gain has no fault of its own. -/
theorem careful_setDb {stage : DbStage} (hW : ∀ value, W stage.address value) (request : Int) :
    (setDb stage request).Careful W silent := by
  have hnote : (noteClamped stage (stage.clamp request) request).Careful W silent := by
    unfold noteClamped
    split
    · exact careful_pure ()
    · exact careful_log rfl
  have hstore : (store stage (stage.clamp request)).Careful W silent := by
    cases stage with
    | rxvga1 | rxvga2 | txvga1 => exact careful_writeByte (hW _)
    | txvga2 => exact careful_modify fun _ => hW _
  refine hnote.bind fun _ _ => ?_
  refine hstore.bind fun _ _ => ?_
  exact careful_pure _

theorem careful_readDb (stage : DbStage) : (readDb stage).Careful W silent :=
  (careful_readByte _).map _

/-- A gain mode of the LNA that is a setting is written without a fault. -/
theorem careful_setLna {gain : Amplifier.LnaGain} (hgain : gain ≠ .unknown)
    (hW : ∀ old, W lnaControl (Rx.lnaGain.set old gain.bits)) :
    (setLna gain).Careful W silent := by
  cases gain with
  | unknown => exact (hgain rfl).elim
  | bypass | mid | max => exact careful_assign hW

/-- Reading the gain mode of the LNA, with the refused setting set apart. -/
theorem readLna_eq : readLna = (do
    let bits ← load Rx.lnaGain
    if Amplifier.LnaGain.ofBits bits = .unknown then fail .unexpectedState
    else return Amplifier.LnaGain.ofBits bits) := by
  unfold readLna
  congr 1
  funext bits
  cases Amplifier.LnaGain.ofBits bits <;> rfl

/-- Reading the gain mode of the LNA can meet the code of no setting. -/
theorem careful_readLna (hs : silent .unexpectedState) : readLna.Careful W silent := by
  refine (careful_load _).bind fun bits _ => ?_
  split
  · exact careful_fail hs
  · exact careful_pure _

/-- A gain mode that has been read is a setting. -/
theorem ne_unknown_of_canReturn {gain : Amplifier.LnaGain} (h : readLna.CanReturn gain) :
    gain ≠ .unknown := by
  obtain ⟨bits, -, h⟩ := canReturn_bind.1 h
  split at h
  · exact (not_canReturn_fail h).elim
  · next hne =>
    obtain rfl := canReturn_pure.1 h
    exact hne

end Gain

/-! ## Power, sampling and dumps -/

section Settings

variable (hW : ∀ address value, W address value)

include hW

/-- A filter is switched through its mode. -/
theorem LowPass.careful_enable (h : Half) (on : Bool) : (enable h on).Careful W silent := by
  refine (careful_put fun _ => hW _ _).bind fun _ _ => (careful_readByte _).bind fun bypass _ => ?_
  split
  · exact careful_writeByte (hW _ _)
  · exact careful_pure ()

/-- Switching a filter writes its two registers. -/
theorem LowPass.careful_setMode (h : Half) (mode : Mode) : (setMode h mode).Careful W silent := by
  refine (careful_readByte _).bind fun _ _ => ?_
  refine (careful_readByte _).bind fun _ _ => ?_
  refine (careful_writeByte (hW _ _)).bind fun _ _ => ?_
  exact careful_writeByte (hW _ _)

theorem Power.careful_enableLna (on : Bool) : (enableLna on).Careful W silent :=
  (careful_put fun _ => hW _ _).bind fun _ _ => careful_put fun _ => hW _ _

/-- A number of dither bits that exists is written, and every refusal reported. -/
theorem Power.careful_enableDither (h : Half) {bits : Nat} (hbits : 1 ≤ bits ∧ bits ≤ 8)
    (on : Bool) : (enableDither h bits on).Careful W silent := by
  rw [enableDither, if_pos hbits]
  split
  · exact careful_modify fun _ => hW _ _
  · exact careful_put fun _ => hW _ _

/-- An input that exists is selected, and every refusal reported. -/
theorem Sampling.careful_select {sampling : Sampling} (h : sampling ≠ .unknown) :
    sampling.select.Careful W silent := by
  cases sampling with
  | unknown => exact (h rfl).elim
  | internal | external =>
    exact (careful_put fun _ => hW _ _).bind fun _ _ => careful_put fun _ => hW _ _

end Settings

/-- Careful steps over a list are careful. -/
theorem Procedure.careful_mapM {ι : Type} {f : ι → Procedure α} (h : ∀ i, (f i).Careful W silent)
    (l : List ι) : (l.mapM f).Careful W silent := by
  induction l with
  | nil => exact careful_pure []
  | cons i rest ih =>
    rw [List.mapM_cons]
    refine (h i).bind fun _ _ => ?_
    refine ih.bind fun _ _ => ?_
    exact careful_pure _

/-- What is done for each of some things is careful if it is for each one. -/
theorem Procedure.careful_forM {ι : Type} {f : ι → Procedure Unit}
    (h : ∀ i, (f i).Careful W silent) (l : List ι) : (l.forM f).Careful W silent := by
  induction l with
  | nil => exact careful_pure ()
  | cons i rest ih => exact (h i).bind fun _ _ => ih

theorem Dump.careful_readEntry (group : String) (address : Address) :
    (readEntry group address).Careful W silent := by
  have heq : readEntry group address = (do
      let value ← (readByte address).noting (.dumpFailed address)
      log (.dumped address value)
      return { group, address, value }) := by
    simp only [readEntry, noting, LawfulMonad.bind_assoc]
    congr
    funext result
    rcases result with fault | _ <;> rfl
  rw [heq]
  refine ((careful_readByte address).noting rfl).bind fun _ _ => ?_
  refine (careful_log rfl).bind fun _ _ => ?_
  exact careful_pure _

/-- A dump stops at the first register that it cannot read, and notes it. -/
theorem Dump.careful_take : take.Careful W silent :=
  careful_mapM (fun _ => careful_readEntry _ _) _

end Transceiver
