import Transceiver.Proofs.Careful
import Transceiver.Proofs.Reach

/-!
# Steps that store one register

Most steps of a clean-up are alike: one register is stored, as a whole or with one field changed,
and nothing else is written. Such a step has two outcomes on the chip, and what it has stored stays
there as long as the steps that follow store other registers.
-/

namespace Transceiver.Procedure

open Chip

variable {α β : Type}

/-- The procedure makes an access before it can end. -/
def Touches : Procedure α → Prop
  | .done _ => False
  | .read _ _ | .write _ _ _ => True
  | .note _ next | .pause _ next => next.Touches

theorem Touches.run {p : Procedure α} (h : p.Touches) {σ : Type} (t : Transport σ) (s : σ) :
    ∃ e ∈ (p.run t s).events, e.isAccess := by
  induction p generalizing s with
  | done result => exact h.elim
  | read address next ih => exact ⟨_, List.mem_cons_self, rfl⟩
  | write address value next ih => exact ⟨_, List.mem_cons_self, rfl⟩
  | note entry next ih | pause microseconds next ih =>
    obtain ⟨e, he, haccess⟩ := ih h s
    exact ⟨e, List.mem_cons_of_mem _ he, haccess⟩

theorem Touches.map {p : Procedure α} (h : p.Touches) (f : α → β) : (f <$> p).Touches := by
  show (p.bind fun a => pure (f a)).Touches
  induction p with
  | done result => exact h.elim
  | read address next ih | write address value next ih => trivial
  | note entry next ih | pause microseconds next ih => exact ih h

/-- The procedure stores one register, if it is not refused, and never writes another. What it
stores may depend on what the registers hold. -/
structure Sets (address : Address) (value : RegisterFile → Byte) (p : Procedure Unit) : Prop where
  touches : p.Touches
  writes : p.WritesOnly fun a _ => a = address
  atomic : ∀ (refused : Nat → Bool) (s : Nat × Chip),
    (p.run (bus refused) s).Atomic s.2.registers
      (s.2.registers.set address (value s.2.registers)) (.ok ())

theorem sets_writeByte (address : Address) (value : Byte) :
    (writeByte address value).Sets address fun _ => value where
  touches := trivial
  writes := (writesOnly_writeByte address value).2 rfl
  atomic refused s := atomic_writeByte refused address value s

theorem sets_assign {w : Nat} (field : BitField w) (value : BitVec w)
    (h : (Site.at field.address).isStored) :
    (assign field value).Sets field.address fun r => field.set (r.get field.address) value where
  touches := trivial
  writes := (writesOnly_assign field value).2 fun _ => rfl
  atomic refused s := atomic_modify refused h (field.set · value) s

theorem sets_put (flag : Flag) (on : Bool) (h : (Site.at flag.address).isStored) :
    (put flag on).Sets flag.address fun r => flag.put (r.get flag.address) on :=
  sets_assign flag (BitVec.ofBool on) h

/-- A stage with a register of its own is set without being read. -/
theorem sets_setDb {stage : DbStage} (h : stage = .rxvga1 ∨ stage = .rxvga2) (request : Int) :
    (discard (Gain.setDb stage request)).Sets stage.address
      fun _ => stage.encode (stage.clamp request) 0 := by
  have hstore : Gain.store stage (stage.clamp request) =
      writeByte stage.address (stage.encode (stage.clamp request) 0) := by
    rcases h with rfl | rfl <;> rfl
  refine ⟨?_, ?_, fun refused s => ?_⟩
  · have htouches : (Gain.setDb stage request).Touches := by
      unfold Gain.setDb Gain.noteClamped
      rw [hstore]
      split <;> trivial
    exact htouches.map _
  · have hcareful : (Gain.setDb stage request).Careful (fun a _ => a = stage.address)
        fun _ => False := Gain.careful_setDb (fun _ => rfl) request
    exact (hcareful.map _).writesOnly
  · have hnote : ((Gain.noteClamped stage (stage.clamp request) request).run (bus refused) s).Atomic
        s.2.registers s.2.registers (.ok ()) := by
      unfold Gain.noteClamped
      split
      · exact atomic_pure refused () s
      · exact atomic_log refused _ s
    have hset : ((Gain.setDb stage request).run (bus refused) s).Atomic s.2.registers
        (s.2.registers.set stage.address (stage.encode (stage.clamp request) 0))
        (.ok (stage.effective request)) := by
      refine atomic_bind refused hnote fun s' hs => ?_
      rw [hstore, ← hs]
      exact atomic_map refused (atomic_writeByte refused _ _ s') fun _ => stage.effective request
    exact atomic_map refused hset fun _ => ()

theorem sets_setLna {gain : Amplifier.LnaGain} (h : gain ≠ .unknown) :
    (Gain.setLna gain).Sets Register.lnaControl
      fun r => Register.Rx.lnaGain.set (r.get Register.lnaControl) gain.bits := by
  cases gain with
  | unknown => exact (h rfl).elim
  | bypass | mid | max => exact sets_assign Register.Rx.lnaGain _ rfl

/-! ## Sequences of steps -/

variable (refused : Nat → Bool)

/-- A register that none of some steps writes keeps its contents. -/
theorem get_stateAfter {address : Address} {ps : List (Procedure Unit)}
    (h : ∀ p ∈ ps, p.WritesOnly fun a _ => a ≠ address) (s : Nat × Chip) :
    (stateAfter (bus refused) ps s).2.registers.get address = s.2.registers.get address := by
  induction ps generalizing s with
  | nil => rfl
  | cons p rest ih =>
    have hrest := ih (fun q hq => h q (List.mem_cons_of_mem _ hq)) (p.run (bus refused) s).state
    refine hrest.trans ?_
    rw [registers_run]
    exact RegisterFile.get_after
      (fun value hmem => (h p List.mem_cons_self).of_mem _ _ hmem rfl) _

theorem agreeOutside_stateAfter {reach : List Bits} {ps : List (Procedure Unit)}
    (h : ∀ p ∈ ps, p.Within reach) (s : Nat × Chip) :
    s.2.registers.AgreeOutside reach (stateAfter (bus refused) ps s).2.registers := by
  have hforce := within_forceAll h refused s
  rwa [run_forceAll] at hforce

end Transceiver.Procedure
