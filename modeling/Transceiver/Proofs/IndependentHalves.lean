import Transceiver.Proofs.CommandWrites
import Transceiver.Proofs.Dependence
import Transceiver.Proofs.FrequencyFrame
import Transceiver.Proofs.IndependentSettings

/-!
# Independent halves

Commands that set up the transmit half and commands that set up the receive half can be interleaved
in any way. A half is set up by its own registers and by the path switches, which none of these
commands writes, so a command for one half leaves what the other half sees as it is. This holds
where the command fails too, since tuning a VCO that does not lock depends on the registers of its
own half like everything else.

The clocks of the modulators are what the halves have in common: tuning one half switches the clocks
of both. But no command makes anything of the clocks that it finds, and on a chip that refuses
nothing tuning always ends with both of them off, so that in the end it only matters whether any
half has been tuned.
-/

namespace Transceiver

open Procedure Register

/-! ## The registers of a half -/

namespace Half

/-- The register with the front end enable of a half. -/
def frontEndRegister : Half → Address
  | .tx => txFrontEnd
  | .rx => rxFrontEnd

/-- The registers that belong to a half alone. -/
def ownRegisters (h : Half) : List Address :=
  Synthesizer.programmed h ++ [(Pll.enable h).address, (Lpf.enable h).address,
    (Lpf.bypass h).address, h.frontEndRegister, Synthesizer.amplifierRegister h]

/-- The registers that a half is set up by: its own, the comparators of its tuning voltage, and the
path switches. -/
def seenRegisters (h : Half) : List Address :=
  (Pll.vtune h).address :: loopbackControl :: basebandLoop :: h.ownRegisters

/-- What a half is set up by is stored, apart from the comparators, which follow the trim code. -/
theorem sees_of_mem (h : Half) {address : Address} (hmem : address ∈ h.seenRegisters) :
    Chip.Sees h.seenRegisters address := by
  have hstored : ∀ address ∈ loopbackControl :: basebandLoop :: h.ownRegisters,
      (Site.at address).isStored := by
    cases h <;> decide
  have hcap : (Pll.vcoCap h).address ∈ h.seenRegisters := by cases h <;> decide
  refine ⟨hmem, ?_⟩
  rcases List.mem_cons.1 hmem with rfl | hrest
  · exact .inr ⟨h, rfl, hcap⟩
  · exact .inl (hstored address hrest)

/-- What belongs to one half is not seen by the other, and the clocks are seen by neither. -/
theorem unseen_of_own {h other : Half} (hne : h ≠ other) :
    ∀ address ∈ clockEnable :: h.ownRegisters, address ∉ other.seenRegisters := by
  revert hne
  cases h <;> cases other <;> decide

end Half

/-! ## What is seen of the chip while a half is set up -/

namespace Half

variable {h : Half}

theorem seesOnly_read {address : Address} (hmem : address ∈ h.seenRegisters) :
    (readByte address).SeesOnly h.seenRegisters :=
  seesOnly_readByte (h.sees_of_mem hmem)

/-- A change of a register that a half sees depends on what the half sees. -/
theorem seesOnly_modify {address : Address} (hmem : address ∈ h.seenRegisters)
    (change : Byte → Byte) : (modify address change).SeesOnly h.seenRegisters :=
  (compositional_seesOnly _).modify (seesOnly_read hmem) (seesOnly_writeByte address) change

/-- Whether a loopback is engaged is seen by both halves. -/
theorem seesOnly_isEngaged (h : Half) : Loopback.isEngaged.SeesOnly h.seenRegisters := by
  have hM := compositional_seesOnly h.seenRegisters
  refine hM.bind (hM.bind (seesOnly_read (by simp [seenRegisters])) fun _ => ?_) fun _ => hM.done _
  exact hM.bind (seesOnly_read (by simp [seenRegisters])) fun _ => hM.done _

end Half

namespace Synthesizer

open Half

/-- A probe shows what the comparators of its own half make of the trim code. -/
theorem seesOnly_probe (h : Half) (cap : Byte) (code : Nat) :
    (probe h cap code).SeesOnly h.seenRegisters := by
  have hM := compositional_seesOnly h.seenRegisters
  refine hM.bind (seesOnly_writeByte _ _) fun _ => ?_
  refine hM.bind (hM.load (seesOnly_read List.mem_cons_self)) fun shown => ?_
  cases TuningVoltage.ofCode shown.toNat with
  | ok voltage => exact hM.done _
  | error fault => exact hM.bind (hM.log _ nofun) fun _ => hM.done _

/-- So tuning depends on its own half, in all of its phases. -/
theorem seesOnly_tune (h : Half) : (tune h).SeesOnly h.seenRegisters := by
  have hM := compositional_seesOnly h.seenRegisters
  rw [tune_eq]
  refine hM.bind (seesOnly_read (by cases h <;> decide)) fun cap => ?_
  exact hM.tuneFrom (seesOnly_probe h cap)

/-- And so does programming, apart from the path switches. -/
theorem seesOnly_program (h : Half) (hz : Nat) (d : Divider) :
    (program h hz d).SeesOnly h.seenRegisters := by
  have hM := compositional_seesOnly h.seenRegisters
  have hwrite (address : Address) (value : Byte) :
      (writeByte address value).SeesOnly h.seenRegisters := seesOnly_writeByte address value
  have hband : (writeBand h hz d.freqSel).SeesOnly h.seenRegisters := by
    refine hM.bind (seesOnly_read (by cases h <;> decide)) fun old => ?_
    refine hM.bind (seesOnly_isEngaged h) fun engaged => ?_
    split
    · exact hwrite _ _
    · exact hwrite _ _
  have hdividers : (writeDividers h d.nint d.nfrac).SeesOnly h.seenRegisters :=
    hM.bind (hwrite _ _) fun _ => hM.bind (hwrite _ _) fun _ => hM.bind (hwrite _ _) fun _ =>
      hwrite _ _
  have hcurrents : (setCurrents h).SeesOnly h.seenRegisters := by
    refine hM.bind (seesOnly_modify (by cases h <;> decide) _) fun _ => ?_
    refine hM.bind (seesOnly_modify (by cases h <;> decide) _) fun _ => ?_
    exact seesOnly_modify (by cases h <;> decide) _
  refine hM.bind hband fun _ => hM.bind hdividers fun _ => hM.bind hcurrents fun _ => ?_
  exact seesOnly_tune h

/-- The clocks of the modulators are switched without being looked at. -/
theorem seesOnly_setFrequency (h : Half) (request : Nat) :
    (setFrequency h request).SeesOnly h.seenRegisters := by
  have hM := compositional_seesOnly h.seenRegisters
  refine hM.setFrequency (fun on => ?_) (seesOnly_program h _ _)
  exact seesOnly_modify_unseen rfl (by cases h <;> decide) _

/-- The amplifier of a half is selected by its own register and the path switches. -/
theorem seesOnly_selectBand (h : Half) (hz : Nat) :
    (selectBand h hz).SeesOnly h.seenRegisters := by
  have hM := compositional_seesOnly h.seenRegisters
  refine hM.bind (seesOnly_isEngaged h) fun engaged => ?_
  split
  · exact hM.done _
  · cases h with
    | tx | rx => exact seesOnly_modify (by decide) _

end Synthesizer

namespace LowPass

open Half

theorem seesOnly_setMode (h : Half) (mode : Mode) : (setMode h mode).SeesOnly h.seenRegisters := by
  have hM := compositional_seesOnly h.seenRegisters
  refine hM.bind (seesOnly_read (by cases h <;> decide)) fun _ => ?_
  refine hM.bind (seesOnly_read (by cases h <;> decide)) fun _ => ?_
  exact hM.bind (seesOnly_writeByte _ _) fun _ => seesOnly_writeByte _ _

/-- Switching a filter depends on the bypass bit that it clears. -/
theorem seesOnly_enable (h : Half) (on : Bool) : (enable h on).SeesOnly h.seenRegisters := by
  have hM := compositional_seesOnly h.seenRegisters
  refine hM.bind (seesOnly_modify (by cases h <;> decide) _) fun _ => ?_
  refine hM.bind (seesOnly_read (by cases h <;> decide)) fun bypass => ?_
  split
  · exact seesOnly_writeByte _ _
  · exact hM.done _

end LowPass

/-! ## Setting up a half -/

namespace Command

open Half

/-- The half that a command sets up, if it sets up one half. -/
def half? : Command → Option Half
  | .setFrequency half _ | .selectBand half _ | .setFilterMode half _ | .enableFilter half _
  | .setBandwidth half _ | .setBandwidthHz half _ | .enablePll half _ | .enableDither half _ _
  | .enableFrontEnd half _ => some half
  | _ => none

variable {command : Command} {h : Half}

/-- A command that sets up a half writes registers of that half, and the clocks. -/
theorem writes_of_half (hhalf : command.half? = some h) :
    ∀ address ∈ command.writes, address ∈ clockEnable :: h.ownRegisters := by
  cases command with
  | setFrequency half _ | selectBand half _ | setFilterMode half _ | enableFilter half _
  | setBandwidth half _ | setBandwidthHz half _ | enablePll half _ | enableDither half _ _
  | enableFrontEnd half _ =>
    obtain rfl := Option.some.inj hhalf
    cases half <;> dsimp only [writes] <;> decide
  | _ => cases hhalf

/-- What a command returns that sets up a half, and what it does to the registers of the half,
depends on these and on the path switches only. -/
theorem seesOnly_of_half (hhalf : command.half? = some h) :
    command.procedure.SeesOnly h.seenRegisters := by
  have hM := compositional_seesOnly h.seenRegisters
  have hmodify {address : Address} (hmem : address ∈ h.seenRegisters) (change : Byte → Byte) :
      (modify address change).SeesOnly h.seenRegisters := seesOnly_modify hmem change
  -- each command of a half changes registers of that half, by what it sees of them
  cases command with
  | setFrequency half hz =>
    obtain rfl := Option.some.inj hhalf
    exact hM.map (Synthesizer.seesOnly_setFrequency half hz) _
  | selectBand half hz =>
    obtain rfl := Option.some.inj hhalf
    exact hM.acknowledge (Synthesizer.seesOnly_selectBand half hz)
  | setFilterMode half mode =>
    obtain rfl := Option.some.inj hhalf
    exact hM.acknowledge (LowPass.seesOnly_setMode half mode)
  | enableFilter half on =>
    obtain rfl := Option.some.inj hhalf
    exact hM.acknowledge (LowPass.seesOnly_enable half on)
  | setBandwidth half width =>
    obtain rfl := Option.some.inj hhalf
    exact hM.acknowledge (hmodify (by cases half <;> decide) _)
  | setBandwidthHz half hz =>
    obtain rfl := Option.some.inj hhalf
    exact hM.map (hM.bind (hmodify (by cases half <;> decide) _) fun _ => hM.done _) _
  | enablePll half on =>
    obtain rfl := Option.some.inj hhalf
    exact hM.acknowledge (hmodify (by cases half <;> decide) _)
  | enableDither half bits on =>
    obtain rfl := Option.some.inj hhalf
    have hdither : (Pll.dither half).address ∈ half.seenRegisters := by cases half <;> decide
    refine hM.acknowledge ?_
    unfold Power.enableDither
    split
    · split
      · exact hmodify hdither _
      · exact hmodify hdither _
    · exact hM.done _
  | enableFrontEnd half on =>
    obtain rfl := Option.some.inj hhalf
    cases half with
    | tx | rx => exact hM.acknowledge (hmodify (by decide) _)
  | _ => cases hhalf

/-- Whether a command switches the clocks of the modulators. -/
def clocksModulators : Command → Bool
  | .setFrequency _ _ => true
  | _ => false

/-- The clocks with those of both modulators off. -/
def unclocked (clocks : Byte) : Byte :=
  Clock.rxDsm.put (Clock.txDsm.put clocks false) false

/-- With both clocks off in the end it does not matter how they have been switched before. -/
theorem unclocked_switched (clocks : Byte) (on : Bool) :
    unclocked (Clock.rxDsm.put (Clock.txDsm.put clocks on) on) = unclocked clocks := by
  have hall : ∀ (on : Bool) (clocks : BitVec 8),
      unclocked (Clock.rxDsm.put (Clock.txDsm.put clocks on) on) = unclocked clocks := by
    decide +kernel
  exact hall on clocks

/-- On a chip that refuses no access, a command that sets up a half leaves the clocks alone, or
leaves the modulators without a clock, whatever it returns. -/
theorem clocks_of_half (hhalf : command.half? = some h) {c : Chip} (hc : c.Obeys none) :
    (command.procedure.run Chip.transport c).state.registers.get clockEnable =
      if command.clocksModulators then unclocked (c.registers.get clockEnable)
      else c.registers.get clockEnable := by
  have helsewhere (hout : clockEnable ∉ command.writes) :
      (command.procedure.run Chip.transport c).state.registers.get clockEnable =
        c.registers.get clockEnable :=
    (wp_run hc (wp_of_writesOnly command.writesOnly_writes c.registers)).2 clockEnable
      fun _ hmem => hout hmem
  -- only tuning writes the clocks, and the last write of a tuning switches both off
  cases command with
  | setFrequency half request =>
    have hprogram : (Synthesizer.program half (clampHz request) (Divider.ofHz request)).Careful
        (fun address _ => address ∈ Synthesizer.programmed half) fun _ => False :=
      Synthesizer.careful_program (fun _ hmem _ => hmem) _ _
    have hout : clockEnable ∉ Synthesizer.programmed half := by cases half <;> decide
    have htuned : (Synthesizer.setFrequency half request).wp none
        (fun _ r => r.get clockEnable = unclocked (c.registers.get clockEnable)) c.registers := by
      rw [Synthesizer.wp_setFrequency]
      refine wp_mono (wp_of_writesOnly hprogram.writesOnly _) fun _ r hkept => ?_
      have hclocks := hkept clockEnable fun _ hmem => hout hmem
      rw [Synthesizer.clocked, RegisterFile.get_set_self] at hclocks ⊢
      rw [hclocks]
      exact unclocked_switched _ true
    rw [procedure, run_map]
    exact (wp_run hc htuned).2
  | selectBand half _ | setFilterMode half _ | enableFilter half _ | setBandwidth half _
  | setBandwidthHz half _ | enablePll half _ | enableDither half _ _ | enableFrontEnd half _ =>
    exact helsewhere (by cases half <;> dsimp only [writes] <;> decide)
  | _ => cases hhalf

end Command

/-! ## Sessions -/

/-- The commands of a session that set up a half. -/
def Half.part (h : Half) (commands : List Command) : List Command :=
  commands.filter fun command => command.half? = some h

/-- Every command of a session sets up one half. -/
def SetsUpHalves (commands : List Command) : Prop :=
  ∀ command ∈ commands, ∃ h, command.half? = some h

namespace SetsUpHalves

variable {commands others : List Command} {command : Command}

/-- The commands of a session are those of its parts. -/
theorem mem_of_part (hcommands : SetsUpHalves commands)
    (hparts : ∀ h : Half, h.part commands = h.part others) (hmem : command ∈ commands) :
    command ∈ others := by
  obtain ⟨h, hhalf⟩ := hcommands command hmem
  have hpart : command ∈ h.part commands := List.mem_filter.2 ⟨hmem, decide_eq_true hhalf⟩
  rw [hparts] at hpart
  exact (List.mem_filter.1 hpart).1

/-- Sessions with the same parts agree on whether the clocks of the modulators are switched. -/
theorem any_clocksModulators (hcommands : SetsUpHalves commands) (hothers : SetsUpHalves others)
    (hparts : ∀ h : Half, h.part commands = h.part others) :
    commands.any Command.clocksModulators = others.any Command.clocksModulators := by
  have hmem (command : Command) : command ∈ commands ↔ command ∈ others :=
    ⟨hcommands.mem_of_part hparts, hothers.mem_of_part fun h => (hparts h).symm⟩
  rw [Bool.eq_iff_iff]
  simp only [List.any_eq_true, hmem]

end SetsUpHalves

namespace Chip

open Half

variable {c c' : Chip} {h : Half} {commands others : List Command}

/-- A command adds no voltages that are to be shown. -/
theorem voltages_run (command : Command) (hvoltages : c.voltages = []) :
    (command.procedure.run transport c).state.voltages = [] := by
  have halike : Alike [] c (command.procedure.run transport c).state :=
    alike_run (command.writesOnly_writes.mono fun _ _ _ => List.not_mem_nil) hvoltages
  exact halike.voltages.trans hvoltages

/-- What a session returns for the commands of one half, and what it leaves to that half, is the
same as if it consisted of these commands only. -/
theorem history_part (hcommands : SetsUpHalves commands) (hvoltages : c.voltages = [])
    (halike : Alike h.seenRegisters c' c) :
    ((c.history commands).filter fun entry => entry.1.half? = some h) =
        c'.history (h.part commands) ∧
      Alike h.seenRegisters (c'.after (h.part commands)) (c.after commands) := by
  induction commands generalizing c c' with
  | nil => exact ⟨rfl, halike⟩
  | cons command rest ih =>
    obtain ⟨⟨other, hother⟩, hrest⟩ := List.forall_mem_cons.1 hcommands
    have hnext := voltages_run command hvoltages
    by_cases hown : command.half? = some h
    · obtain ⟨hresult, hafter⟩ := Command.seesOnly_of_half hown c' c halike
      obtain ⟨hhistory, hregisters⟩ := ih hrest hnext hafter
      simp only [part, hown, history, decide_true, List.filter_cons_of_pos, after_cons, hresult]
      exact ⟨congrArg _ hhistory, hregisters⟩
    · -- the command of the other half goes unnoticed
      have hne : other ≠ h := fun heq => hown (heq ▸ hother)
      have hunseen : Alike h.seenRegisters c (command.procedure.run transport c).state :=
        alike_run (command.writesOnly_writes.mono fun address _ hmem =>
          unseen_of_own hne address (Command.writes_of_half hother address hmem)) hvoltages
      obtain ⟨hhistory, hregisters⟩ := ih hrest hnext (halike.trans hunseen)
      simp only [part, hown, history, decide_false, Bool.false_eq_true, not_false_eq_true,
        List.filter_cons_of_neg, after_cons]
      exact ⟨hhistory, hregisters⟩

/-- After a session the clocks of the modulators are off if any half has been tuned, and untouched
otherwise. -/
theorem clocks_after (hcommands : SetsUpHalves commands) (hc : c.Obeys none) :
    (c.after commands).registers.get clockEnable =
      if commands.any Command.clocksModulators then Command.unclocked (c.registers.get clockEnable)
      else c.registers.get clockEnable := by
  induction commands generalizing c with
  | nil => rfl
  | cons command rest ih =>
    obtain ⟨⟨half, hhalf⟩, hrest⟩ := List.forall_mem_cons.1 hcommands
    have hnext : (command.procedure.run transport c).state.Obeys none := hc.after [command]
    rw [after_cons, ih hrest hnext, Command.clocks_of_half hhalf hc, List.any_cons]
    cases command.clocksModulators with
    | false => rfl
    | true =>
      rw [Bool.true_or, if_pos rfl]
      split
      · exact Command.unclocked_switched _ false
      · rfl

/-- What no command of a session writes is as before. -/
theorem alike_after {seen : List Address}
    (hunseen : ∀ command ∈ commands, ∀ address ∈ command.writes, address ∉ seen)
    (hvoltages : c.voltages = []) : Alike seen c (c.after commands) := by
  induction commands generalizing c with
  | nil => exact .refl c
  | cons command rest ih =>
    obtain ⟨hfirst, hrest⟩ := List.forall_mem_cons.1 hunseen
    have hstep : Alike seen c (command.procedure.run transport c).state :=
      alike_run (command.writesOnly_writes.mono fun address _ hmem => hfirst address hmem) hvoltages
    exact hstep.trans (ih hrest (voltages_run command hvoltages))

/-- A register that belongs to no half is as it was, unless it is that of the clocks. -/
theorem get_after_of_unowned (hcommands : SetsUpHalves commands) (hvoltages : c.voltages = [])
    {address : Address} (hclocks : address ≠ clockEnable)
    (hout : ∀ h : Half, address ∉ h.ownRegisters) :
    (c.after commands).registers.get address = c.registers.get address := by
  have halike : Alike [address] c (c.after commands) := by
    refine alike_after (fun command hmem other hwrite hseen => ?_) hvoltages
    obtain ⟨h, hhalf⟩ := hcommands command hmem
    obtain rfl := List.mem_singleton.1 hseen
    rcases List.mem_cons.1 (Command.writes_of_half hhalf _ hwrite) with heq | hown
    · exact hclocks heq
    · exact hout h hown
  exact halike.registers address List.mem_cons_self

/-- Sessions with the same parts end with the same registers. -/
theorem registers_after_eq (hcommands : SetsUpHalves commands) (hothers : SetsUpHalves others)
    (hparts : ∀ h : Half, h.part commands = h.part others) (hc : c.Obeys none)
    (hvoltages : c.voltages = []) :
    (c.after commands).registers = (c.after others).registers := by
  apply RegisterFile.ext_get
  intro address
  -- a register belongs to a half, is that of the clocks, or is not written at all
  by_cases hown : ∃ h : Half, address ∈ h.ownRegisters
  · obtain ⟨h, hmem⟩ := hown
    have hseen : address ∈ h.seenRegisters := by simp [seenRegisters, hmem]
    have hleft : Alike h.seenRegisters (c.after (h.part commands)) (c.after commands) :=
      (history_part hcommands hvoltages (.refl c)).2
    have hright : Alike h.seenRegisters (c.after (h.part others)) (c.after others) :=
      (history_part hothers hvoltages (.refl c)).2
    rw [hleft.registers address hseen, hright.registers address hseen, hparts]
  · have hout : ∀ h : Half, address ∉ h.ownRegisters := fun h hmem => hown ⟨h, hmem⟩
    by_cases hclocks : address = clockEnable
    · rw [hclocks, clocks_after hcommands hc, clocks_after hothers hc,
        hcommands.any_clocksModulators hothers hparts]
    · rw [get_after_of_unowned hcommands hvoltages hclocks hout,
        get_after_of_unowned hothers hvoltages hclocks hout]

end Chip

/-! ## Interleavings -/

/-- A list is made of two others, each of them in its own order. -/
inductive Interleaving {α : Type} : List α → List α → List α → Prop where
  | nil : Interleaving [] [] []
  | left {a : α} {l r merged : List α} (h : Interleaving l r merged) :
    Interleaving (a :: l) r (a :: merged)
  | right {a : α} {l r merged : List α} (h : Interleaving l r merged) :
    Interleaving l (a :: r) (a :: merged)

namespace Interleaving

variable {α : Type} {l r merged : List α}

/-- One after the other is an interleaving. -/
theorem append (l r : List α) : Interleaving l r (l ++ r) := by
  induction l with
  | nil =>
    induction r with
    | nil => exact .nil
    | cons a r ih => exact .right ih
  | cons a l ih => exact .left ih

/-- It does not matter which of the two comes first. -/
theorem symm (h : Interleaving l r merged) : Interleaving r l merged := by
  induction h with
  | nil => exact .nil
  | left _ ih => exact .right ih
  | right _ ih => exact .left ih

/-- What is in an interleaving is in one of the two. -/
theorem mem (h : Interleaving l r merged) {a : α} (hmem : a ∈ merged) : a ∈ l ∨ a ∈ r := by
  induction h with
  | nil => cases hmem
  | left _ ih =>
    rcases List.mem_cons.1 hmem with rfl | hrest
    · exact .inl List.mem_cons_self
    · exact (ih hrest).imp_left (List.mem_cons_of_mem _)
  | right _ ih =>
    rcases List.mem_cons.1 hmem with rfl | hrest
    · exact .inr List.mem_cons_self
    · exact (ih hrest).imp_right (List.mem_cons_of_mem _)

/-- What can be told apart can be taken apart again. -/
theorem filter_left (h : Interleaving l r merged) {p : α → Bool} (hl : ∀ a ∈ l, p a = true)
    (hr : ∀ a ∈ r, p a = false) : merged.filter p = l := by
  induction h with
  | nil => rfl
  | left _ ih =>
    obtain ⟨hfirst, hrest⟩ := List.forall_mem_cons.1 hl
    rw [List.filter_cons_of_pos hfirst, ih hrest hr]
  | right _ ih =>
    obtain ⟨hfirst, hrest⟩ := List.forall_mem_cons.1 hr
    rw [List.filter_cons_of_neg (Bool.eq_false_iff.1 hfirst), ih hl hrest]

end Interleaving

namespace Chip

variable {tx rx merged : List Command}

/-- The two halves are independent. Take some commands for the transmit half and some for the
receive half, and any chip that refuses no access and whose comparators follow their window, or show
their register where there is none. However the commands are interleaved, each of them returns what
it returns without those for the other half, also where it fails, and the registers end as if one
half were set up after the other. -/
theorem halves_independent (htx : ∀ command ∈ tx, command.half? = some .tx)
    (hrx : ∀ command ∈ rx, command.half? = some .rx) (h : Interleaving tx rx merged) (c : Chip)
    (hread : c.failRead = none) (hwrite : c.failWrite = none) (hvoltages : c.voltages = []) :
    ((c.history merged).filter fun entry => entry.1.half? = some .tx) = c.history tx ∧
    ((c.history merged).filter fun entry => entry.1.half? = some .rx) = c.history rx ∧
    (c.after merged).registers = (c.after (tx ++ rx)).registers := by
  have hc : c.Obeys none := ⟨hread, hwrite, fun _ hw => by cases hw⟩
  have hall {l : List Command} (h : Interleaving tx rx l) : SetsUpHalves l := by
    intro command hmem
    rcases h.mem hmem with hleft | hright
    · exact ⟨.tx, htx command hleft⟩
    · exact ⟨.rx, hrx command hright⟩
  have hpartTx {l : List Command} (h : Interleaving tx rx l) : Half.part .tx l = tx :=
    h.filter_left (fun command hmem => by simp [htx command hmem])
      fun command hmem => by simp [hrx command hmem]
  have hpartRx {l : List Command} (h : Interleaving tx rx l) : Half.part .rx l = rx :=
    h.symm.filter_left (fun command hmem => by simp [hrx command hmem])
      fun command hmem => by simp [htx command hmem]
  have hserial : Interleaving tx rx (tx ++ rx) := .append tx rx
  have hhistory (half : Half) := (history_part (h := half) (hall h) hvoltages (.refl c)).1
  refine ⟨?_, ?_, registers_after_eq (hall h) (hall hserial) (fun half => ?_) hc hvoltages⟩
  · rw [hhistory, hpartTx h]
  · rw [hhistory, hpartRx h]
  · cases half with
    | tx => rw [hpartTx h, hpartTx hserial]
    | rx => rw [hpartRx h, hpartRx hserial]

/-- On a chip whose VCOs lock at no trim code, both tunings fail in the middle of setting up the
other half. -/
theorem halves_independent_unlocked :
    let c : Chip := { initial with window := some (64, 64) }
    let tx : List Command := [.setFrequency .tx 2400000000, .enableDither .tx 3 true]
    let rx : List Command := [.selectBand .rx 2400000000, .setFrequency .rx 500000000]
    let merged : List Command := [.selectBand .rx 2400000000, .setFrequency .tx 2400000000,
      .setFrequency .rx 500000000, .enableDither .tx 3 true]
    (c.history merged).map (fun entry => entry.2.isOk) = [true, false, false, true] ∧
    ((c.history merged).filter fun entry => entry.1.half? = some .tx) = c.history tx ∧
    ((c.history merged).filter fun entry => entry.1.half? = some .rx) = c.history rx ∧
    (c.after merged).registers = (c.after (tx ++ rx)).registers := by
  intro c tx rx merged
  have htx : ∀ command ∈ tx, command.half? = some .tx := by simp [tx, Command.half?]
  have hrx : ∀ command ∈ rx, command.half? = some .rx := by simp [rx, Command.half?]
  have hmerged : Interleaving tx rx merged := .right (.left (.right (.left .nil)))
  exact ⟨by decide +kernel, halves_independent htx hrx hmerged c rfl rfl rfl⟩

end Chip

end Transceiver
