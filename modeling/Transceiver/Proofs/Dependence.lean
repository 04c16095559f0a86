import Transceiver.Proofs.Writes
import Transceiver.Proofs.Composition
import Transceiver.Proofs.Bus

/-!
# What a procedure depends on

Two chips may differ in many registers and still look the same to a procedure that never asks for
these. Such chips are alike as seen by some registers. A procedure that sees these registers only
returns the same on both chips and leaves them alike, whatever it writes. A procedure that writes
none of these registers leaves the chip like itself.

The comparators of a tuning voltage are seen through the trim code, or, where they follow no window,
through their own register. What they are about to show before they follow the window is taken by
whoever reads first, so that it has to be used up if two conversations are not to depend on each
other.
-/

namespace Transceiver

open Procedure Register

namespace Chip

/-- Two chips look the same to accesses that see some registers only. -/
structure Alike (seen : List Address) (c c' : Chip) : Prop where
  failRead : c'.failRead = c.failRead
  failWrite : c'.failWrite = c.failWrite
  window : c'.window = c.window
  voltages : c'.voltages = c.voltages
  registers : ∀ address ∈ seen, c'.registers.get address = c.registers.get address

variable {seen : List Address} {c c' c'' : Chip}

theorem Alike.refl (c : Chip) : Alike seen c c :=
  ⟨rfl, rfl, rfl, rfl, fun _ _ => rfl⟩

theorem Alike.symm (h : Alike seen c c') : Alike seen c' c :=
  ⟨h.failRead.symm, h.failWrite.symm, h.window.symm, h.voltages.symm,
    fun address hmem => (h.registers address hmem).symm⟩

theorem Alike.trans (h : Alike seen c c') (h' : Alike seen c' c'') : Alike seen c c'' :=
  ⟨h'.failRead.trans h.failRead, h'.failWrite.trans h.failWrite, h'.window.trans h.window,
    h'.voltages.trans h.voltages,
    fun address hmem => (h'.registers address hmem).trans (h.registers address hmem)⟩

/-! ## One access -/

theorem alike_strobe (c : Chip) (b : Calibration.Block) (control : Byte) :
    Alike seen c (c.strobe b control) := by
  simp only [strobe]
  split <;> split <;> exact ⟨rfl, rfl, rfl, rfl, fun _ _ => rfl⟩

/-- An accepted write changes nothing that is seen but the register. -/
theorem write_accepted {address : Address} (h : c.failWrite ≠ some address) (value : Byte) :
    (c.write address value).1 = true ∧
      Alike seen { c with registers := c.registers.set address value }
        (c.write address value).2 := by
  rw [write, if_neg h]
  cases Site.at address with
  | control block => exact ⟨rfl, alike_strobe _ block value⟩
  | memory | voltage half | value block | status block => exact ⟨rfl, .refl _⟩

/-- A write to a register that is not seen goes unnoticed. -/
theorem alike_write_unseen {address : Address} (h : address ∉ seen) (value : Byte) (c : Chip) :
    Alike seen c (c.write address value).2 := by
  by_cases hfail : c.failWrite = some address
  · rw [write, if_pos hfail]
    exact .refl c
  · have hset : Alike seen c { c with registers := c.registers.set address value } := by
      refine ⟨rfl, rfl, rfl, rfl, fun other hmem => RegisterFile.get_set_of_ne _ ?_ _⟩
      rintro rfl
      exact h hmem
    exact hset.trans (write_accepted hfail value).2

/-- A read goes unnoticed, unless it takes what the comparators are about to show. -/
theorem alike_read (address : Address) (h : c.voltages = []) : Alike seen c (c.read address).2 := by
  rw [read]
  split
  · exact .refl c
  · cases Site.at address with
    | voltage half =>
      dsimp only
      rw [readVoltage, h]
      cases c.window <;> exact .refl c
    | status block => exact ⟨rfl, rfl, rfl, rfl, fun _ _ => rfl⟩
    | memory | value block | control block => exact .refl c

/-- The same value is written to chips that are alike, or any values where they are not seen. -/
theorem Alike.write (h : Alike seen c c') {address : Address} {value value' : Byte}
    (hvalue : address ∈ seen → value' = value) :
    (c'.write address value').1 = (c.write address value).1 ∧
      Alike seen (c.write address value).2 (c'.write address value').2 := by
  by_cases hfail : c.failWrite = some address
  · rw [Chip.write, Chip.write, if_pos hfail, if_pos (h.failWrite.trans hfail)]
    exact ⟨rfl, h⟩
  · obtain ⟨haccepted, hafter⟩ := write_accepted hfail value
    obtain ⟨haccepted', hafter'⟩ := write_accepted (h.failWrite ▸ hfail) value'
    have hset : Alike seen { c with registers := c.registers.set address value }
        { c' with registers := c'.registers.set address value' } := by
      refine ⟨h.failRead, h.failWrite, h.window, h.voltages, fun other hmem => ?_⟩
      show (c'.registers.set address value').get other = (c.registers.set address value).get other
      rw [RegisterFile.get_set, RegisterFile.get_set]
      split
      · next heq => exact hvalue (heq ▸ hmem)
      · exact h.registers other hmem
    exact ⟨haccepted'.trans haccepted.symm, (hafter.symm.trans hset).trans hafter'⟩

/-- A stored register is shown on both chips or on neither, and it shows the same if it is seen. -/
theorem Alike.read_stored (h : Alike seen c c') {address : Address}
    (hs : (Site.at address).isStored) :
    ((c'.read address).1.isSome = (c.read address).1.isSome ∧
      (address ∈ seen → (c'.read address).1 = (c.read address).1)) ∧
      Alike seen (c.read address).2 (c'.read address).2 := by
  by_cases hfail : c.failRead = some address
  · rw [Chip.read, Chip.read, if_pos hfail, if_pos (h.failRead.trans hfail)]
    exact ⟨⟨rfl, fun _ => rfl⟩, h⟩
  · rw [Chip.read, Chip.read, if_neg hfail, if_neg (h.failRead ▸ hfail)]
    cases hsite : Site.at address with
    | memory | control block =>
      exact ⟨⟨rfl, fun hmem => congrArg some (h.registers address hmem)⟩, h⟩
    | voltage half | value block | status block => simp [hsite, Site.isStored] at hs

/-- The comparators show the same, if what they follow is seen. -/
theorem Alike.readVoltage (h : Alike seen c c') {half : Half}
    (hvtune : (Pll.vtune half).address ∈ seen) (hcap : (Pll.vcoCap half).address ∈ seen) :
    (c'.readVoltage half).1 = (c.readVoltage half).1 ∧
      Alike seen (c.readVoltage half).2 (c'.readVoltage half).2 := by
  cases hshown : c.voltages with
  | cons shown rest =>
    simp only [Chip.readVoltage, hshown, h.voltages.trans hshown]
    exact ⟨trivial, h.failRead, h.failWrite, h.window, rfl, h.registers⟩
  | nil =>
    cases hwindow : c.window with
    | none =>
      simp only [Chip.readVoltage, hshown, h.voltages.trans hshown, hwindow,
        h.window.trans hwindow]
      exact ⟨h.registers _ hvtune, h⟩
    | some window =>
      simp only [Chip.readVoltage, hshown, h.voltages.trans hshown, hwindow,
        h.window.trans hwindow, h.registers _ hcap]
      exact ⟨trivial, h⟩

/-! ## Registers that can be seen -/

/-- What a register shows depends on seen registers only: it is stored, or it is that of comparators
with the trim code that they follow. -/
def Sees (seen : List Address) (address : Address) : Prop :=
  address ∈ seen ∧ ((Site.at address).isStored ∨
    ∃ half : Half, address = (Pll.vtune half).address ∧ (Pll.vcoCap half).address ∈ seen)

theorem Alike.read (h : Alike seen c c') {address : Address} (hsees : Sees seen address) :
    (c'.read address).1 = (c.read address).1 ∧
      Alike seen (c.read address).2 (c'.read address).2 := by
  obtain ⟨hmem, hstored | ⟨half, rfl, hcap⟩⟩ := hsees
  · obtain ⟨hshown, hafter⟩ := h.read_stored hstored
    exact ⟨hshown.2 hmem, hafter⟩
  · by_cases hfail : c.failRead = some (Pll.vtune half).address
    · rw [Chip.read, Chip.read, if_pos hfail, if_pos (h.failRead.trans hfail)]
      exact ⟨rfl, h⟩
    · obtain ⟨hshown, hafter⟩ := h.readVoltage hmem hcap
      rw [Chip.read, Chip.read, if_neg hfail, if_neg (h.failRead ▸ hfail), Site.at_vtune]
      exact ⟨congrArg some hshown, hafter⟩

end Chip

namespace Procedure

open Chip

variable {α β : Type} {seen : List Address}

/-- On chips that are alike the procedure returns the same, and it leaves them alike. -/
def SeesOnly (seen : List Address) (p : Procedure α) : Prop :=
  ∀ c c' : Chip, Alike seen c c' → (p.run transport c').result = (p.run transport c).result ∧
    Alike seen (p.run transport c).state (p.run transport c').state

theorem SeesOnly.bind {p : Procedure α} {f : α → Procedure β} (hp : p.SeesOnly seen)
    (hf : ∀ a, (f a).SeesOnly seen) : (p >>= f).SeesOnly seen := by
  intro c c' h
  obtain ⟨hresult, hafter⟩ := hp c c' h
  cases hr : (p.run transport c).result with
  | error fault =>
    rw [run_bind_of_error _ _ hr, run_bind_of_error _ _ (hresult.trans hr)]
    exact ⟨rfl, hafter⟩
  | ok a =>
    rw [run_bind_of_ok _ _ hr, run_bind_of_ok _ _ (hresult.trans hr)]
    exact hf a _ _ hafter

/-- What the parts of a procedure see is all that the procedure sees. -/
theorem compositional_seesOnly (seen : List Address) : Compositional fun p => p.SeesOnly seen where
  done _ := fun _ _ h => ⟨rfl, h⟩
  log _ _ := fun _ _ h => ⟨rfl, h⟩
  bind := SeesOnly.bind
  attempt hp := fun c c' h => by
    obtain ⟨hresult, hafter⟩ := hp c c' h
    rw [run_attempt, run_attempt]
    exact ⟨congrArg Except.ok hresult, hafter⟩

/-- What one access returns and leaves is decided by the transport. -/
theorem outcome_readByte (address : Address) (c : Chip) :
    ((readByte address).run transport c).result =
        (match (c.read address).1 with
        | some value => .ok value
        | none => .error .io) ∧
      ((readByte address).run transport c).state = (c.read address).2 := by
  rw [run_readByte]
  simp only [transport]
  rcases c.read address with ⟨_ | value, after⟩ <;> exact ⟨rfl, rfl⟩

theorem outcome_writeByte (address : Address) (value : Byte) (c : Chip) :
    ((writeByte address value).run transport c).result =
        (if (c.write address value).1 then .ok () else .error .io) ∧
      ((writeByte address value).run transport c).state = (c.write address value).2 := by
  rw [run_writeByte]
  simp only [transport]
  rcases c.write address value with ⟨_ | _, after⟩ <;> exact ⟨rfl, rfl⟩

theorem seesOnly_readByte {address : Address} (h : Sees seen address) :
    (readByte address).SeesOnly seen := by
  intro c c' halike
  obtain ⟨hshown, hafter⟩ := halike.read h
  obtain ⟨hresult, hstate⟩ := outcome_readByte address c
  obtain ⟨hresult', hstate'⟩ := outcome_readByte address c'
  rw [hresult, hresult', hstate, hstate', hshown]
  exact ⟨rfl, hafter⟩

/-- A write does not ask for anything, so it makes no difference whether it can be seen. -/
theorem seesOnly_writeByte (address : Address) (value : Byte) :
    (writeByte address value).SeesOnly seen := by
  intro c c' halike
  obtain ⟨haccepted, hafter⟩ := halike.write (fun _ => rfl : address ∈ seen → value = value)
  obtain ⟨hresult, hstate⟩ := outcome_writeByte address value c
  obtain ⟨hresult', hstate'⟩ := outcome_writeByte address value c'
  rw [hresult, hresult', hstate, hstate', haccepted]
  exact ⟨rfl, hafter⟩

/-- A change of a register that is not seen comes to the same on both chips, though it reads and
writes what may differ. -/
theorem seesOnly_modify_unseen {address : Address} (hs : (Site.at address).isStored)
    (hout : address ∉ seen) (change : Byte → Byte) : (modify address change).SeesOnly seen := by
  intro c c' halike
  obtain ⟨⟨hsome, -⟩, hafter⟩ := halike.read_stored hs
  obtain ⟨hresult, hstate⟩ := outcome_readByte address c
  obtain ⟨hresult', hstate'⟩ := outcome_readByte address c'
  -- both chips refuse the read, or neither does; the values may differ, but neither is seen
  cases hr : (c.read address).1 with
  | none =>
    have hr' : (c'.read address).1 = none := by
      rwa [hr, Option.isSome_none, Option.isSome_eq_false_iff, Option.isNone_iff_eq_none] at hsome
    rw [hr] at hresult
    rw [hr'] at hresult'
    rw [modify, run_bind_of_error _ _ hresult, run_bind_of_error _ _ hresult', hstate, hstate']
    exact ⟨rfl, hafter⟩
  | some value =>
    obtain ⟨value', hr'⟩ : ∃ value', (c'.read address).1 = some value' := by
      rwa [hr, Option.isSome_some, Option.isSome_iff_exists] at hsome
    rw [hr] at hresult
    rw [hr'] at hresult'
    rw [modify, run_bind_of_ok _ _ hresult, run_bind_of_ok _ _ hresult', hstate, hstate']
    have hvalue : address ∈ seen → change value' = change value := fun hmem => (hout hmem).elim
    obtain ⟨haccepted, hafter⟩ := hafter.write hvalue
    obtain ⟨hwritten, hleft⟩ := outcome_writeByte address (change value) (c.read address).2
    obtain ⟨hwritten', hleft'⟩ := outcome_writeByte address (change value') (c'.read address).2
    rw [hwritten, hwritten', hleft, hleft', haccepted]
    exact ⟨rfl, hafter⟩

/-! ## Leaving a chip as it is seen -/

/-- What writes no register that is seen leaves the chip as it is seen, if the comparators are about
to show nothing but what they follow. -/
theorem alike_run {p : Procedure α} (h : p.WritesOnly fun address _ => address ∉ seen) {c : Chip}
    (hvoltages : c.voltages = []) : Alike seen c (p.run transport c).state := by
  induction p generalizing c with
  | done result => exact .refl c
  | read address next ih =>
    have hread : Alike seen c (c.read address).2 := alike_read address hvoltages
    exact hread.trans (ih _ (h _) (hread.voltages.trans hvoltages))
  | write address value next ih =>
    have hwrite : Alike seen c (c.write address value).2 := alike_write_unseen h.1 value c
    exact hwrite.trans (ih _ (h.2 _) (hwrite.voltages.trans hvoltages))
  | note entry next ih | pause microseconds next ih => exact ih h hvoltages

end Procedure

end Transceiver
