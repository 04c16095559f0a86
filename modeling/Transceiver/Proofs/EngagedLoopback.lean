import Transceiver.Proofs.Programming
import Transceiver.Proofs.Upholding

/-!
# An engaged loopback

While a loopback is engaged, its path switches, the amplifiers and the output buffers of both PLLs
belong to it. Frequencies may be changed and bands selected all the same. Nothing remembers that the
loopback is engaged: each operation asks the path switches, one register after the other and in the
middle of what it does, and any of its accesses may be refused.

What keeps the loopback as it is, is that it answers for itself. As long as the path switches are as
they were, they show the mode that they showed, so that the operation spares what the loopback owns
and with it the path switches.
-/

namespace Transceiver

open Procedure Register

namespace Loopback

/-! ## What a loopback owns -/

/-- The registers that belong to an engaged loopback: the path switches and the amplifiers. -/
def ownedRegisters : List Address := [loopbackControl, basebandLoop, paControl, lnaControl]

example : ownedRegisters = [0x08, 0x46, 0x44, 0x75] := rfl

/-- The registers with the output buffer and the band code of a PLL. The loopback owns a part of
them only. -/
def bufferRegisters : List Address := [(Pll.selOut .rx).address, (Pll.selOut .tx).address]

/-- What belongs to an engaged loopback is as it was before. -/
structure Spared (before r : RegisterFile) : Prop where
  owned : ∀ address ∈ ownedRegisters, r.get address = before.get address
  buffers : ∀ h : Half, r.field (Pll.selOut h) = before.field (Pll.selOut h)

variable {before r : RegisterFile}

theorem Spared.refl (r : RegisterFile) : Spared r r :=
  ⟨fun _ _ => rfl, fun _ => rfl⟩

/-- The path switches show what they showed before. -/
theorem Spared.shown_eq (hr : Spared before r) : shown r = shown before := by
  rw [shown, hr.owned loopbackControl (by decide), hr.owned basebandLoop (by decide), shown]

/-- A write that has nothing to do with what a loopback owns. -/
def Unowned (address : Address) (_ : Byte) : Prop :=
  address ∉ ownedRegisters ∧ address ∉ bufferRegisters

theorem Spared.set (hr : Spared before r) {address : Address} {value : Byte}
    (h : Unowned address value) : Spared before (r.set address value) := by
  refine ⟨fun other hmem => ?_, fun half => ?_⟩
  · have hne : address ≠ other := by
      rintro rfl
      exact h.1 hmem
    rw [RegisterFile.get_set_of_ne _ hne]
    exact hr.owned other hmem
  · have hne : address ≠ (Pll.selOut half).address := by
      rintro rfl
      exact h.2 (by cases half <;> decide)
    rw [RegisterFile.field, RegisterFile.get_set_of_ne _ hne]
    exact hr.buffers half

/-- The band code shares its register with the output buffer. Setting it spares the buffer. -/
theorem Spared.assign_freqSel (hr : Spared before r) (h : Half) (code : BitVec 6) :
    Spared before (r.assign (Pll.freqSel h) code) := by
  have howned : (Pll.freqSel h).address ∉ ownedRegisters := by cases h <;> decide
  have hapart (half : Half) : (Pll.selOut half).Apart (Pll.freqSel h) := by
    cases half <;> cases h <;> decide
  refine ⟨fun other hmem => ?_, fun half => ?_⟩
  · have hne : (Pll.freqSel h).address ≠ other := fun heq => howned (heq ▸ hmem)
    rw [RegisterFile.get_assign_of_ne hne]
    exact hr.owned other hmem
  · rw [RegisterFile.field_assign_of_apart (hapart half)]
    exact hr.buffers half

theorem maintains_of_unowned {α : Type} {p : Procedure α} (h : p.WritesOnly Unowned) :
    p.Maintains (Spared before) :=
  maintains_of_writesOnly h fun _ _ _ hunowned hr => hr.set hunowned

/-! ## Asking whether a loopback is engaged -/

theorem upholds_isEngaged_bind {α : Type} {P : RegisterFile → Prop} {f : Bool → Procedure α}
    {post : Except Fault α → RegisterFile → Prop} (hrefused : post (.error .io) r)
    (h : (f (shown r != .none)).Upholds P post r) : (isEngaged >>= f).Upholds P post r := by
  simp only [isEngaged, current, LawfulMonad.bind_assoc]
  apply upholds_readByte_bind rfl hrefused
  exact upholds_readByte_bind rfl hrefused h

end Loopback

/-! ## Tuning and selecting a band -/

namespace Synthesizer

open Loopback

variable {before : RegisterFile} (hengaged : shown before ≠ .none)

include hengaged

/-- The band code is set by itself, since the loopback is still engaged when it is asked for. -/
theorem spares_writeBand (h : Half) (hz : Nat) (code : BitVec 6) :
    (writeBand h hz code).Maintains (Spared before) := by
  have hstored : (Site.at (Pll.freqSel h).address).isStored := by cases h <;> rfl
  intro r hr
  apply upholds_readByte_bind hstored hr
  apply upholds_isEngaged_bind hr
  rw [hr.shown_eq, if_pos (bne_iff_ne.2 hengaged)]
  have hset := hr.assign_freqSel h code
  exact upholds_writeByte hr hset hset

theorem spares_program (h : Half) (hz : Nat) (d : Divider) :
    (program h hz d).Maintains (Spared before) := by
  have hunowned : ∀ address ∈ (programmed h).tail,
      address ∉ ownedRegisters ∧ address ∉ bufferRegisters := by
    cases h <;> decide
  refine (spares_writeBand hengaged h hz d.freqSel).bind fun _ _ => ?_
  exact maintains_of_unowned
    (writesOnly_afterBand (fun address hmem _ => hunowned address hmem) d)

/-- Tuning a half spares what an engaged loopback owns, whatever fails on the way. -/
theorem spares_setFrequency (h : Half) (request : Nat) :
    (setFrequency h request).Maintains (Spared before) := by
  have hclock : clockEnable ∉ ownedRegisters ∧ clockEnable ∉ bufferRegisters := by decide
  refine (compositional_maintains _).setFrequency (fun on => ?_) (spares_program hengaged h _ _)
  exact maintains_of_unowned ((writesOnly_modify _ _).2 fun _ => hclock)

/-- Selecting a band does nothing while a loopback is engaged. -/
theorem spares_selectBand (h : Half) (hz : Nat) :
    (selectBand h hz).Maintains (Spared before) := by
  intro r hr
  apply upholds_isEngaged_bind hr
  rw [hr.shown_eq, if_pos (bne_iff_ne.2 hengaged)]
  exact hr

end Synthesizer

/-! ## Sessions -/

/-- Whether a command tunes a half or selects its band. -/
def Command.tunes : Command → Bool
  | .setFrequency _ _ | .selectBand _ _ => true
  | _ => false

namespace Loopback

open Synthesizer Chip

theorem spares_of_tunes {before : RegisterFile} (hengaged : shown before ≠ .none)
    {command : Command} (htunes : command.tunes) :
    command.procedure.Maintains (Spared before) := by
  cases command with
  | setFrequency h request => exact (spares_setFrequency hengaged h request).map _
  | selectBand h hz => exact (spares_selectBand hengaged h hz).acknowledge
  | _ => cases htunes

/-- A loopback keeps what it owns. Whatever frequencies are set and bands selected while it is
engaged, however the comparators answer and whichever accesses are refused, the chip shows the same
mode as before, with the path switches, the amplifiers and the output buffers of both PLLs as they
were. -/
theorem engaged_keeps_what_it_owns {start c : Chip} {commands : List Command}
    (hengaged : start.shows current ≠ .ok .none) (hcommands : ∀ command ∈ commands, command.tunes)
    (h : start.Driven commands c) :
    c.shows current = start.shows current ∧
      (∀ address ∈ ownedRegisters, c.registers.get address = start.registers.get address) ∧
      ∀ half : Half, c.registers.field (Pll.selOut half) =
        start.registers.field (Pll.selOut half) := by
  have hshown : shown start.registers ≠ .none := fun hnone =>
    hengaged (by rw [shows_current, hnone])
  have hspared : Spared start.registers c.registers :=
    h.invariant (fun command hmem => spares_of_tunes hshown (hcommands command hmem)) (.refl _)
  refine ⟨?_, hspared.owned, hspared.buffers⟩
  rw [shows_current, shows_current, hspared.shown_eq]

/-- A loopback to the first LNA stays engaged while the receive half is tuned to the high band, with
the eleventh access refused, and the other LNA is asked for after that. -/
theorem engaged_keeps_what_it_owns_through_refusal :
    let start : Chip := { initial with registers := initialRegisters.set loopbackControl 0x01 }
    let tuned := (Command.setFrequency .rx 2400000000).procedure.run (bus (· == 10)) (0, start)
    let c := ((Command.selectBand .rx 2400000000).procedure.run (bus fun _ => false)
      (0, tuned.state.2)).state.2
    tuned.result.isOk = false ∧ start.shows current = .ok (.rf .lna1) ∧
      c.shows current = start.shows current ∧
      (∀ address ∈ ownedRegisters, c.registers.get address = start.registers.get address) ∧
      ∀ half : Half, c.registers.field (Pll.selOut half) =
        start.registers.field (Pll.selOut half) := by
  intro start tuned c
  have hengaged : start.shows current = .ok (.rf .lna1) := rfl
  have htuned : start.Driven [.setFrequency .rx 2400000000] tuned.state.2 :=
    .command (.nothing rfl) rfl _ 0
  have hdriven : start.Driven [.setFrequency .rx 2400000000, .selectBand .rx 2400000000] c :=
    .command htuned rfl _ 0
  refine ⟨by decide +kernel, hengaged, engaged_keeps_what_it_owns ?_ ?_ hdriven⟩
  · rw [hengaged]
    rintro ⟨⟩
  · simp [Command.tunes]

end Loopback

end Transceiver
