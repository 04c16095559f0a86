import Transceiver.Command
import Transceiver.Proofs.CleanUp

/-!
# Fault reporting

Every command is orderly, over every transport: the fault it reports is the one that arose first,
and a refused access is never retried. Most commands are plain, that is careful throughout, so that
nothing at all is accessed after a failure. Tuning and calibrating put their last steps in a forced
sequence instead, and those steps are the only ones that a failure does not stop. An argument out of
its range is refused before anything is accessed.
-/

namespace Transceiver

open Procedure Register

variable {σ α β : Type} {t : Transport σ}

/-! ## Plain procedures -/

/-- A fault that can arise when every access goes through. -/
def Fault.Arises (fault : Fault) : Prop :=
  fault ≠ .io ∧ fault ≠ .invalidArgument

theorem Fault.arises_unexpectedState : Fault.Arises .unexpectedState := by
  simp [Fault.Arises]

/-- A frequency that cannot be computed is a fault of the registers, not of the bus. -/
theorem Fault.arises_arithmetic (cause : ArithmeticFault) : Fault.Arises (.arithmetic cause) := by
  simp [Fault.Arises]

/-- No bound on the writes. -/
def AnyWrite (_ : Address) (_ : Byte) : Prop :=
  True

theorem anyWrite (address : Address) (value : Byte) : AnyWrite address value :=
  trivial

/-- The procedure is careful, and never finds fault with its argument. -/
abbrev Procedure.Plain (p : Procedure α) : Prop :=
  p.Careful AnyWrite Fault.Arises

/-- A plain procedure is orderly with any clean-up, because it runs none. -/
theorem Procedure.Plain.orderly {p : Procedure α} (h : p.Plain) (cleanUp : List (Procedure Unit))
    (s : σ) : (p.run t s).Orderly t cleanUp :=
  .of_careful (h.run t s) (by simp [Fault.Arises]) (by simp [Fault.Arises])

theorem Procedure.plain_put (flag : Flag) (on : Bool) : (put flag on).Plain :=
  careful_put fun _ => anyWrite _ _

theorem Procedure.plain_assign {w : Nat} (field : BitField w) (value : BitVec w) :
    (assign field value).Plain :=
  careful_assign fun _ => anyWrite _ _

theorem Procedure.plain_modify (address : Address) (change : Byte → Byte) :
    (modify address change).Plain :=
  careful_modify fun _ => anyWrite _ _

theorem Procedure.plain_log {entry : Note} (h : entry.isAlarm = false) : (log entry).Plain :=
  careful_log h

/-- Whatever is made of the result, the run stays orderly. -/
theorem Outcome.Orderly.map {cleanUp : List (Procedure Unit)} {p : Procedure α} {s : σ}
    (h : (p.run t s).Orderly t cleanUp) (f : α → β) :
    ((f <$> p).run t s).Orderly t cleanUp := by
  rw [← bind_pure_comp]
  exact h.bind fun a _ => Plain.orderly (careful_pure (f a)) cleanUp _

/-! ## Tuning -/

/-- Tuning to a frequency switches the clocks of the modulators off, whatever becomes of the
rest. -/
theorem Synthesizer.orderly_setFrequency (h : Half) (request : Nat) (s : σ) :
    ((setFrequency h request).run t s).Orderly t [clockModulators false] := by
  rw [setFrequency_eq]
  have hclamped : (noteClamped (clampHz request) request).Plain := careful_noteClamped _ _
  refine .bind (hclamped.orderly _ s) fun _ _ => ?_
  refine .bind ((plain_log rfl).orderly _ _) fun _ _ => ?_
  have hon : ((clockModulators true).noting .modulatorsFailed).Plain :=
    (careful_clockModulators (anyWrite _) true).noting rfl
  refine .bind (hon.orderly _ _) fun _ _ => ?_
  have hsteps : ∀ p ∈ [program h (clampHz request) (Divider.ofHz (clampHz request)),
      clockModulators false], p.Careful AnyWrite fun _ => False := by
    simp only [List.forall_mem_cons]
    exact ⟨careful_program (fun _ _ => anyWrite _) _ _, careful_clockModulators (anyWrite _) false,
      by simp⟩
  refine .bind (Outcome.Orderly.forceAll hsteps _) fun _ _ => ?_
  exact Plain.orderly (careful_pure _) _ _

/-! ## Changing the loopback -/

namespace Loopback

/-- The path switches are set in four accesses, and the first refusal ends them. -/
theorem plain_closeSwitches (mode : Mode) : (closeSwitches mode).Plain := by
  refine (careful_readByte _).bind fun _ _ => ?_
  refine (careful_readByte _).bind fun _ _ => ?_
  refine (careful_writeByte (anyWrite _ _)).bind fun _ _ => ?_
  exact careful_writeByte (anyWrite _ _)

/-- A filter is set or left alone. -/
theorem plain_reviveFilter (found : LowPass.Mode) : (reviveFilter found).Plain := by
  unfold reviveFilter
  split
  · exact LowPass.careful_setMode anyWrite .rx .normal
  · exact careful_pure ()

/-- Going back to a band tunes, and cleans up as tuning does. -/
theorem orderly_restoreBand (h : Half) (s : σ) :
    ((restoreBand h).run t s).Orderly t [Synthesizer.clockModulators false] := by
  have hread : (Synthesizer.frequencyHz h).Plain :=
    Synthesizer.careful_frequencyHz Fault.arises_unexpectedState Fault.arises_arithmetic h
  refine .bind (hread.orderly _ s) fun hz _ => ?_
  refine .bind (Synthesizer.orderly_setFrequency h hz _) fun _ _ => ?_
  have hselect : (Synthesizer.selectBand h hz).Plain :=
    Synthesizer.careful_selectBand (anyWrite _) (anyWrite _)
  exact hselect.orderly _ _

/-- Preparing the receive half is plain up to the tuning that normal operation ends with. -/
theorem orderly_prepareRx (mode : Mode) (s : σ) :
    ((prepareRx mode).run t s).Orderly t [Synthesizer.clockModulators false] := by
  refine .bind (Plain.orderly (LowPass.careful_mode .rx) _ s) fun filter _ => ?_
  have hrevive := plain_reviveFilter filter
  have hlna (on : Bool) : (Power.enableLna on).Plain := Power.careful_enableLna anyWrite on
  match mode with
  | .baseband _ .rxVga2 =>
    have hmode : (LowPass.setMode .rx .disabled).Plain := LowPass.careful_setMode anyWrite _ _
    exact Plain.orderly ((plain_put _ _).bind fun _ _ => hmode) _ _
  | .baseband _ .rxLpf =>
    exact Plain.orderly ((plain_put _ _).bind fun _ _ => hrevive.bind fun _ _ => plain_put _ _) _ _
  | .rf path =>
    exact Plain.orderly ((hlna false).bind fun _ _ => (plain_put _ _).bind fun _ _ =>
      hrevive.bind fun _ _ => (plain_put _ _).bind fun _ _ => (plain_assign _ _).bind fun _ _ =>
        (plain_assign _ _).bind fun _ _ => plain_put _ _) _ _
  | .none =>
    refine .bind ((plain_put _ _).orderly _ _) fun _ _ => ?_
    refine .bind (hrevive.orderly _ _) fun _ _ => ?_
    refine .bind ((plain_put _ _).orderly _ _) fun _ _ => ?_
    refine .bind ((plain_put _ _).orderly _ _) fun _ _ => ?_
    refine .bind ((hlna true).orderly _ _) fun _ _ => ?_
    exact orderly_restoreBand .rx _

/-- Preparing the transmit half tunes as well for normal operation. -/
theorem orderly_prepareTx (mode : Mode) (s : σ) :
    ((prepareTx mode).run t s).Orderly t [Synthesizer.clockModulators false] := by
  match mode with
  | .baseband _ _ => exact Plain.orderly (careful_pure ()) _ s
  | .rf _ => exact (plain_modify _ _).orderly _ s
  | .none => exact orderly_restoreBand .tx s

/-- Changing the mode cleans up as the tuning does that it may come to. -/
theorem orderly_change (mode : Mode) (s : σ) :
    ((change mode).run t s).Orderly t [Synthesizer.clockModulators false] := by
  refine .bind ((plain_log rfl).orderly _ s) fun _ _ => ?_
  refine .bind ((plain_modify _ _).orderly _ _) fun _ _ => ?_
  refine .bind ((plain_assign _ _).orderly _ _) fun _ _ => ?_
  refine .bind ((plain_closeSwitches .none).orderly _ _) fun _ _ => ?_
  refine .bind (orderly_prepareRx mode _) fun _ _ => ?_
  refine .bind (orderly_prepareTx mode _) fun _ _ => ?_
  exact (plain_closeSwitches mode).orderly _ _

end Loopback

/-! ## Calibrating -/

namespace Calibration

/-- The clean-up that is due once the backup has been taken. -/
def dueCleanUp (t : Transport σ) (s : σ) (b : Block) : List (Procedure Unit) :=
  match ((takeBackup b).run t s).result with
  | .ok backup => cleanUp b backup
  | .error _ => []

/-- A calibration cleans up what its backup says. Before the backup has been taken there is nothing
to clean up. -/
theorem orderly_calibrate (b : Block) (s : σ) :
    ((calibrate b).run t s).Orderly t (dueCleanUp t s b) := by
  rw [run_calibrate]
  have hbackup : (takeBackup b).Plain := careful_takeBackup Fault.arises_unexpectedState b
  refine .bind (hbackup.orderly _ s) fun backup hok => ?_
  have hsteps : ∀ p ∈ setUpAndConverge b backup :: cleanUp b backup,
      p.Careful AnyWrite fun _ => False := by
    rw [List.forall_mem_cons]
    have hany : b.Allows AnyWrite := .of_all anyWrite
    refine ⟨careful_setUpAndConverge hany backup, careful_cleanUp hany fun found hfound => ?_⟩
    exact lnaGain_ne_unknown (canReturn_of_run t hok) hfound
  have hdue : dueCleanUp t s b = cleanUp b backup := by
    simp only [dueCleanUp, hok]
  rw [hdue]
  exact Outcome.Orderly.forceAll hsteps _

end Calibration

/-! ## Every command -/

namespace Command

/-- The steps that a command still runs after a failure, at most. -/
def cleanUp (t : Transport σ) (s : σ) : Command → List (Procedure Unit)
  | .setFrequency _ _ | .setLoopback _ => [Synthesizer.clockModulators false]
  | .calibrate block => Calibration.dueCleanUp t s block
  | _ => []

/-- A raw address is a register, or the command ends at once. -/
theorem register_cases (address : Byte) :
    (∃ a, register address = pure a) ∨ register address = fail .invalidArgument := by
  unfold register
  split
  · next a _ => exact .inl ⟨a, rfl⟩
  · exact .inr rfl

/-- The procedure of a command is orderly over every transport, or it finds fault with its argument
before anything is accessed. -/
def Reliable (c : Command) : Prop :=
  (∀ (σ : Type) (t : Transport σ) (s : σ), (c.procedure.run t s).Orderly t (c.cleanUp t s)) ∨
    c.procedure = fail .invalidArgument

/-- A plain command is orderly without a clean-up. -/
theorem reliable_of_plain {c : Command} (h : c.procedure.Plain) : c.Reliable :=
  .inl fun _ _ s => h.orderly _ s

/-- A command that acknowledges a plain procedure is reliable. -/
theorem reliable_of_acknowledge {c : Command} {p : Procedure Unit} (h : p.Plain)
    (hc : c.procedure = acknowledge p) : c.Reliable := by
  refine reliable_of_plain ?_
  rw [hc]
  exact h.bind fun _ _ => careful_pure Reply.unit

/-- A command that returns what a plain procedure returns is reliable. -/
theorem reliable_of_map {c : Command} {p : Procedure α} {f : α → Reply} (h : p.Plain)
    (hc : c.procedure = f <$> p) : c.Reliable := by
  refine reliable_of_plain ?_
  rw [hc]
  exact h.map f

/-- A command for a raw address is as good as the same command for the register. -/
theorem reliable_of_register {c : Command} {address : Byte} {f : Address → Procedure Reply}
    (hf : ∀ a, (f a).Plain) (hc : c.procedure = register address >>= f) : c.Reliable := by
  rcases register_cases address with ⟨a, ha⟩ | ha
  · refine reliable_of_plain ?_
    rw [hc, ha]
    exact hf a
  · refine .inr ?_
    rw [hc, ha]
    rfl

/-- Every command is reliable. Three of them clean up, some others check their argument first, and
all the rest are plain. -/
theorem reliable (c : Command) : c.Reliable := by
  cases c with
  | readRaw address =>
    exact reliable_of_register (fun a => (careful_readByte a).bind fun _ _ => careful_pure _) rfl
  | writeRaw address value =>
    exact reliable_of_register
      (fun a => (careful_writeByte (anyWrite a value)).bind fun _ _ => careful_pure _) rfl
  | setBits address mask | clearBits address mask =>
    exact reliable_of_register (fun a => (plain_modify a _).bind fun _ _ => careful_pure _) rfl
  | softReset =>
    have h : Power.softReset.Plain :=
      (careful_writeByte (anyWrite _ _)).bind fun _ _ => careful_writeByte (anyWrite _ _)
    exact reliable_of_acknowledge h rfl
  | powerDown => exact reliable_of_acknowledge (plain_put _ _) rfl
  | enableRx on | enableTx on | enableRxvga1 on | enableRxvga2 on | enableLoopbackSwitch on
  | enablePeakDetector on => exact reliable_of_acknowledge (plain_put _ _) rfl
  | enableFrontEnd half on =>
    have h : (Power.enableFrontEnd half on).Plain := by
      cases half <;> exact plain_put _ _
    exact reliable_of_acknowledge h rfl
  | enablePll half on => exact reliable_of_acknowledge (plain_put _ _) rfl
  | enableDither half bits on =>
    by_cases hbits : 1 ≤ bits ∧ bits ≤ 8
    · exact reliable_of_acknowledge (Power.careful_enableDither anyWrite half hbits on) rfl
    · refine .inr ?_
      rw [procedure, Power.enableDither, if_neg hbits]
      rfl
  | enableLna on => exact reliable_of_acknowledge (Power.careful_enableLna anyWrite on) rfl
  | selectPowerAmp pa => exact reliable_of_acknowledge (plain_modify _ _) rfl
  | powerAmp => exact reliable_of_map Amplifier.careful_powerAmp rfl
  | selectLna lna => exact reliable_of_acknowledge (plain_assign _ _) rfl
  | lna =>
    have h : Amplifier.lna.Plain := (careful_load _).map _
    exact reliable_of_map h rfl
  | enableFilter half on =>
    exact reliable_of_acknowledge (LowPass.careful_enable anyWrite half on) rfl
  | filterMode half => exact reliable_of_map (LowPass.careful_mode half) rfl
  | setFilterMode half mode =>
    exact reliable_of_acknowledge (LowPass.careful_setMode anyWrite half mode) rfl
  | bandwidth half =>
    have h : (LowPass.bandwidth half).Plain := (careful_load _).map _
    exact reliable_of_map h rfl
  | setBandwidth half bandwidth => exact reliable_of_acknowledge (plain_assign _ _) rfl
  | setBandwidthHz half hz =>
    have h : (LowPass.setBandwidthHz half hz).Plain :=
      (plain_assign _ _).bind fun _ _ => careful_pure _
    exact reliable_of_map h rfl
  | sampling =>
    have h : Sampling.selected.Plain :=
      (careful_readByte _).bind fun _ _ => (careful_readByte _).bind fun _ _ => careful_pure _
    exact reliable_of_map h rfl
  | setSampling sampling =>
    by_cases h : sampling = .unknown
    · subst h
      exact .inr rfl
    · exact reliable_of_acknowledge (Sampling.careful_select anyWrite h) rfl
  | dump => exact reliable_of_map Dump.careful_take rfl
  | setGain gain =>
    cases gain with
    | lna gain =>
      by_cases h : gain = .unknown
      · subst h
        exact .inr rfl
      · have hset : (Gain.set (.lna gain)).Plain := by
          refine (Gain.careful_setLna h fun _ => anyWrite _ _).bind fun _ _ => ?_
          exact careful_pure _
        exact reliable_of_map hset rfl
    | db stage request =>
      have h : (Gain.set (.db stage request)).Plain := (Gain.careful_setDb (anyWrite _) _).map _
      exact reliable_of_map h rfl
  | gain stage =>
    have h : (Gain.read stage).Plain := by
      cases stage with
      | lna => exact (Gain.careful_readLna Fault.arises_unexpectedState).map _
      | db stage => exact (Gain.careful_readDb stage).map _
    exact reliable_of_map h rfl
  | setFrequency half hz =>
    exact .inl fun _ _ s => (Synthesizer.orderly_setFrequency half hz s).map _
  | dividers half =>
    exact reliable_of_map (Synthesizer.careful_dividers Fault.arises_unexpectedState half) rfl
  | frequencyHz half =>
    have h : (Synthesizer.frequencyHz half).Plain :=
      Synthesizer.careful_frequencyHz Fault.arises_unexpectedState Fault.arises_arithmetic half
    exact reliable_of_map h rfl
  | selectBand half hz =>
    exact reliable_of_acknowledge (Synthesizer.careful_selectBand (anyWrite _) (anyWrite _)) rfl
  | setLoopback mode =>
    refine .inl fun _ _ s => (Loopback.orderly_change mode s).bind fun _ _ => ?_
    exact Plain.orderly (careful_pure _) _ _
  | loopback => exact reliable_of_map Loopback.careful_current rfl
  | loopbackEngaged => exact reliable_of_map Loopback.careful_isEngaged rfl
  | calibrate block =>
    refine .inl fun _ _ s => (Calibration.orderly_calibrate block s).bind fun _ _ => ?_
    exact Plain.orderly (careful_pure _) _ _
  | readCalibration =>
    exact reliable_of_map (Calibration.careful_readValues fun _ => anyWrite _) rfl
  | loadCalibration values =>
    by_cases h : values.fit
    · have hload : (Calibration.loadValues values).Plain :=
        Calibration.careful_loadValues (fun _ => anyWrite _) (fun _ => anyWrite _) (anyWrite _) h
      exact reliable_of_acknowledge hload rfl
    · refine .inr ?_
      rw [procedure, Calibration.loadValues, if_neg h]
      rfl

/-- No failure of a command is swallowed, invented or retried, whatever the transport answers and
refuses. The first refused access is the result, unless an alarm has been raised before: then the
command had failed already, in `Fault.unexpectedState`, and is cleaning up. After either of them
nothing is accessed but by the last steps of the clean-up. -/
theorem fault_reporting (t : Transport σ) (c : Command) (s : σ) :
    let o := c.procedure.run t s
    (∀ reply, o.result = .ok reply → ∀ e ∈ o.events, e.isRefused = false) ∧
    (o.result = .error .io → ∃ e ∈ o.events, e.isRefused) ∧
    (o.result = .error .invalidArgument → ∀ e ∈ o.events, e.isAccess = false) ∧
    (∀ pre e post, o.events = pre ++ e :: post →
      (∀ e' ∈ pre, e'.isRefused = false) → e.isRefused →
      ((∀ e' ∈ pre, e'.isAlarm = false) → o.result = .error .io) ∧
      Event.CleanUp t (c.cleanUp t s) post) ∧
    (∀ pre e post, o.events = pre ++ e :: post →
      (∀ e' ∈ pre, e'.isRefused = false) → (∀ e' ∈ pre, e'.isAlarm = false) → e.isAlarm →
      o.result = .error .unexpectedState ∧ Event.CleanUp t (c.cleanUp t s) post) := by
  intro o
  have hcalm {events : List Event} (hr : ∀ e ∈ events, e.isRefused = false)
      (ha : ∀ e ∈ events, e.isAlarm = false) : ∀ e ∈ events, e.isCalm := by
    intro e he
    simp [Event.isCalm, hr e he, ha e he]
  -- either the command is orderly, or it has accessed nothing
  rcases reliable c with h | h
  · have horderly : o.Orderly t (c.cleanUp t s) := h σ t s
    refine ⟨fun reply hok e he => ?_, horderly.io, fun hinvalid => ?_,
      fun pre e post heq hr he => ⟨fun ha => ?_, ?_⟩, fun pre e post heq hr ha he => ?_⟩
    · exact Event.isRefused_eq_false (horderly.calm reply hok e he)
    · exact (horderly.valid hinvalid).elim
    · have hfault : e.fault = .io := by
        have : e.isAlarm = false := by
          cases e <;> simp_all [Event.isRefused, Event.isAlarm]
        simp [Event.fault, this]
      rw [← hfault]
      exact (horderly.failure pre e post heq (hcalm hr ha) (Event.isCalm_of_isRefused he)).1
    · exact horderly.refusal pre e post heq hr he
    · have hfault : e.fault = .unexpectedState := by simp [Event.fault, he]
      rw [← hfault]
      exact horderly.failure pre e post heq (hcalm hr ha) (by simp [Event.isCalm, he])
  · have ho : o = ⟨.error .invalidArgument, s, []⟩ := by
      simp only [o, h]
      rfl
    simp [ho]

end Command

end Transceiver
