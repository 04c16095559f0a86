import Transceiver.Proofs.SavedCalibration

/-!
# Calibration clocks while values are loaded

Loading values switches the calibration clock of a block on, loads one value after the other and
switches the clock off again. An access that is refused on the way ends the load where it is, and
the clock of the block stays on. A calibration puts its clocks back whatever happens; a load does so
only if it gets to its end.
-/

namespace Transceiver

open Procedure Register Chip

/-- A careful procedure that only accesses some registers ends well with every access accepted, or
in a fault with an access refused. -/
theorem Procedure.Careful.run_at {σ α : Type} {W : Address → Byte → Prop}
    {registers : List Address} {p : Procedure α} (hc : p.Careful W fun _ => False)
    (he : p.Emits (Event.At registers)) (t : Transport σ) (s : σ) :
    ((∃ a, (p.run t s).result = .ok a) ∧ ∀ e ∈ (p.run t s).events, e.isRefused = false) ∨
      ((p.run t s).result = .error .io ∧ ∃ e ∈ (p.run t s).events, e.isRefused) := by
  cases hc.run t s with
  | calm calm result =>
    refine .inl ⟨?_, fun e hmem => Event.isRefused_eq_false (calm e hmem)⟩
    cases hr : (p.run t s).result with
    | ok a => exact ⟨a, rfl⟩
    | error fault => exact (result fault hr).elim
  | failed pre e post events calm failure rest result =>
    have hmem : e ∈ (p.run t s).events := by simp [events]
    -- an access is no alarm, so the failure is a refusal
    have hquiet : e.isAlarm = false := by
      have hat := he.run t s e hmem
      cases e with
      | read address answer | write address value accepted => rfl
      | note entry | pause microseconds => exact hat.elim
    refine .inr ⟨?_, e, hmem, ?_⟩
    · rw [result, Event.fault, hquiet]
      rfl
    · simpa [Event.isCalm, hquiet] using failure

/-- What happens in the first part of a sequence happens in the sequence. -/
theorem Procedure.mem_events_bind {σ α β : Type} {t : Transport σ} {p : Procedure α} {s : σ}
    {e : Event} (h : e ∈ (p.run t s).events) (f : α → Procedure β) :
    e ∈ ((p >>= f).run t s).events := by
  cases hr : (p.run t s).result with
  | error fault => rwa [run_bind_of_error t f hr]
  | ok a =>
    rw [run_bind_of_ok t f hr]
    exact List.mem_append_left _ h

/-- An event at the registers of two blocks is one of a single block. -/
theorem Event.block_eq_of_at {e : Event} {b b' : Calibration.Block} (h : e.At b.ports)
    (h' : e.At b'.ports) : b = b' := by
  cases e with
  | read address answer | write address value accepted =>
    exact Calibration.Block.eq_of_mem_ports h h'
  | note entry | pause microseconds => exact h.elim

namespace Calibration

/-! ## Switching a clock -/

section Clock

variable {refused : Nat → Bool} {b : Block} {s : Nat × Chip}

/-- Where the register of the clocks can be accessed, a clock is switched. -/
theorem run_putClock_of_spared (on : Bool)
    (hspared : ∀ e ∈ ((put (Clock.calibration b) on).run (bus refused) s).events,
      e.isRefused → ¬ e.At [clockEnable]) :
    let o := (put (Clock.calibration b) on).run (bus refused) s
    o.result = .ok () ∧ (∀ e ∈ o.events, e.isRefused = false) ∧
      o.state.2.registers = s.2.registers.put (Clock.calibration b) on := by
  intro o
  have hstored : (Site.at (Clock.calibration b).address).isStored := by cases b <;> rfl
  cases atomic_modify refused hstored ((Clock.calibration b).put · on) s with
  | refused refusal result registers =>
    obtain ⟨e, he, href⟩ := refusal
    exact absurd ((emits_putClock b on).run _ _ e he) (hspared e he href)
  | accepted accepted result registers => exact ⟨result, accepted, registers⟩

/-- Accesses to the registers of a block leave the clocks as they are. -/
theorem clocks_run_of_emits {α : Type} {p : Procedure α} (hp : p.Emits (Event.At b.ports))
    (s : Nat × Chip) (b' : Block) :
    (p.run (bus refused) s).state.2.registers.flag (Clock.calibration b') =
      s.2.registers.flag (Clock.calibration b') := by
  have hunwritten : ∀ value, .write clockEnable value true ∉ (p.run (bus refused) s).events :=
    fun value hmem => b.clockEnable_notMem_ports (hp.run _ _ _ hmem)
  rw [registers_run, RegisterFile.flag, RegisterFile.flag, b'.clock_address,
    RegisterFile.get_after hunwritten]

end Clock

/-! ## Loads -/

/-- How a load ends that has started on some registers while the register of the clocks could be
accessed: every access has been accepted and no clock is left on, or an access to a block has been
refused and the clock of that block, and of no other one, is left on. -/
inductive LoadEnd (r : RegisterFile) (o : Outcome (Nat × Chip) Unit) : Prop where
  | finished (result : o.result = .ok ()) (accepted : ∀ e ∈ o.events, e.isRefused = false)
      (off : ∀ b, r.flag (Clock.calibration b) = false →
        o.state.2.registers.flag (Clock.calibration b) = false)
  | interrupted (b : Block) (result : o.result = .error .io)
      (refusal : ∃ e ∈ o.events, e.isRefused ∧ e.At b.ports)
      (only : ∀ e ∈ o.events, e.isRefused → e.At b.ports)
      (on : o.state.2.registers.flag (Clock.calibration b) = true)
      (off : ∀ b', b' ≠ b → r.flag (Clock.calibration b') = false →
        o.state.2.registers.flag (Clock.calibration b') = false)

/-- What comes after accepted accesses that have left no clock on ends as it does by itself. -/
theorem LoadEnd.prepend {r r' : RegisterFile} {result : Except Fault Unit} {s : Nat × Chip}
    {events before : List Event} (h : LoadEnd r' ⟨result, s, events⟩)
    (haccepted : ∀ e ∈ before, e.isRefused = false)
    (hoff : ∀ b, r.flag (Clock.calibration b) = false → r'.flag (Clock.calibration b) = false) :
    LoadEnd r ⟨result, s, before ++ events⟩ := by
  cases h with
  | finished result accepted off =>
    refine .finished result (fun e he => ?_) fun b hb => off b (hoff b hb)
    exact (List.mem_append.1 he).elim (haccepted e) (accepted e)
  | interrupted b result refusal only on off =>
    obtain ⟨e, he, href⟩ := refusal
    refine .interrupted b result ⟨e, List.mem_append_right _ he, href⟩ (fun e he href => ?_) on
      fun b' hne hb' => off b' hne (hoff b' hb')
    rcases List.mem_append.1 he with he | he
    · simp [haccepted e he] at href
    · exact only e he href

variable (refused : Nat → Bool) (values : Values)

/-- A load brackets the accesses to a block by two switches of its clock. -/
theorem loadEnd_bracket {b : Block} {p : Procedure Unit} {W : Address → Byte → Prop}
    (hcareful : p.Careful W fun _ => False) (hemits : p.Emits (Event.At b.ports)) (s : Nat × Chip)
    (hspared : ∀ e ∈ ((put (Clock.calibration b) true >>= fun _ => p >>= fun _ =>
      put (Clock.calibration b) false).run (bus refused) s).events,
        e.isRefused → ¬ e.At [clockEnable]) :
    LoadEnd s.2.registers ((put (Clock.calibration b) true >>= fun _ => p >>= fun _ =>
      put (Clock.calibration b) false).run (bus refused) s) := by
  obtain ⟨hon, honAccepted, honRegisters⟩ := run_putClock_of_spared true
    fun e he => hspared e (mem_events_bind he _)
  rw [run_bind_of_ok _ _ hon] at hspared ⊢
  generalize (put (Clock.calibration b) true).run (bus refused) s = on at *
  have hclock : (p.run (bus refused) on.state).state.2.registers.flag (Clock.calibration b) =
      true := by
    rw [clocks_run_of_emits hemits, honRegisters, RegisterFile.flag_put_self]
  have hothers {b' : Block} (hne : b' ≠ b) :
      (p.run (bus refused) on.state).state.2.registers.flag (Clock.calibration b') =
        s.2.registers.flag (Clock.calibration b') := by
    rw [clocks_run_of_emits hemits, honRegisters,
      RegisterFile.flag_put_of_apart (Block.clocks_apart hne)]
  have hevents := hemits.run (bus refused) on.state
  rcases hcareful.run_at hemits (bus refused) on.state with
    ⟨⟨_, hresult⟩, haccepted⟩ | ⟨hresult, e, he, href⟩
  · -- the accesses have been accepted, and the clock goes off
    rw [run_bind_of_ok _ _ hresult] at hspared ⊢
    obtain ⟨hoff, hoffAccepted, hoffRegisters⟩ := run_putClock_of_spared false
      fun e he => hspared e (List.mem_append_right _ (List.mem_append_right _ he))
    refine .finished hoff (fun e he => ?_) fun b' hb' => ?_
    · rcases List.mem_append.1 he with he | he
      · exact honAccepted e he
      · exact (List.mem_append.1 he).elim (haccepted e) (hoffAccepted e)
    · rw [hoffRegisters]
      by_cases hne : b' = b
      · rw [hne, RegisterFile.flag_put_self]
      · rw [RegisterFile.flag_put_of_apart (Block.clocks_apart hne), hothers hne, hb']
  · -- the clock is left on where the accesses have been cut off
    rw [run_bind_of_error _ _ hresult]
    refine .interrupted b rfl ⟨e, List.mem_append_right _ he, href, hevents e he⟩
      (fun e he href => ?_) hclock fun b' hne hb' => (hothers hne).trans hb'
    rcases List.mem_append.1 he with he | he
    · simp [honAccepted e he] at href
    · exact hevents e he

/-- Loading one block comes to one of these ends. -/
theorem loadEnd_loadBlock (b : Block) (s : Nat × Chip)
    (hspared : ∀ e ∈ ((loadBlock b (values.ofBlock b)).run (bus refused) s).events,
      e.isRefused → ¬ e.At [clockEnable]) :
    LoadEnd s.2.registers ((loadBlock b (values.ofBlock b)).run (bus refused) s) := by
  have hemits := emits_loadSlots values b
  have hcareful : ((values.ofBlock b).forM fun entry => loadSlot entry.1 entry.2).Careful
      (fun _ _ => True) fun _ => False :=
    careful_forM (fun _ => careful_loadSlot (fun _ _ => trivial) (fun _ _ => trivial) _ _) _
  cases hentries : values.ofBlock b with
  | nil => exact .finished rfl (by simp [loadBlock]) fun _ hoff => hoff
  | cons first rest =>
    rw [hentries] at hemits hcareful hspared
    exact loadEnd_bracket refused hcareful hemits s hspared

/-- And loading several comes to the same ends. -/
theorem loadEnd_loadBlocks (blocks : List Block) (s : Nat × Chip)
    (hspared : ∀ e ∈ ((blocks.forM fun b => loadBlock b (values.ofBlock b)).run
      (bus refused) s).events, e.isRefused → ¬ e.At [clockEnable]) :
    LoadEnd s.2.registers
      ((blocks.forM fun b => loadBlock b (values.ofBlock b)).run (bus refused) s) := by
  -- the state is generalized, since every block is loaded from where the one before has ended
  induction blocks generalizing s with
  | nil => exact .finished rfl (by simp [List.forM_nil]) fun _ hoff => hoff
  | cons b rest ih =>
    have hcons : ((b :: rest).forM fun b => loadBlock b (values.ofBlock b)) =
        loadBlock b (values.ofBlock b) >>= fun _ =>
          rest.forM fun b => loadBlock b (values.ofBlock b) := rfl
    rw [hcons] at hspared ⊢
    have hfirst := loadEnd_loadBlock refused values b s
      fun e he => hspared e (mem_events_bind he _)
    cases hfirst with
    | finished result accepted off =>
      rw [run_bind_of_ok _ _ result] at hspared ⊢
      exact (ih _ fun e he => hspared e (List.mem_append_right _ he)).prepend accepted off
    | interrupted b' result refusal only on off =>
      rw [run_bind_of_error _ _ result]
      exact .interrupted b' rfl refusal only on off

/-! ## The clocks after a load -/

/-- However a load ends, whatever accesses have been refused but those to the register of the
clocks: a calibration clock that was off before is on afterwards exactly if an access to the
registers of its block has been refused. So no clock is left on by a load that ends well or is given
a value that does not fit, and one is by every load that a refusal ends. -/
theorem load_leaves_clock_iff_interrupted (refused : Nat → Bool) (n : Nat) (c : Chip)
    (values : Values)
    (hspared : ∀ e ∈ ((loadValues values).run (bus refused) (n, c)).events,
      e.isRefused → ¬ e.At [clockEnable]) :
    let o := (loadValues values).run (bus refused) (n, c)
    (∀ b, c.registers.flag (Clock.calibration b) = false →
      (o.state.2.registers.flag (Clock.calibration b) = true ↔
        ∃ e ∈ o.events, e.isRefused ∧ e.At b.ports)) ∧
    (o.result = .ok () ∨ o.result = .error .invalidArgument →
      ∀ b, c.registers.flag (Clock.calibration b) = false →
        o.state.2.registers.flag (Clock.calibration b) = false) ∧
    (o.result = .error .io → ∃ b, o.state.2.registers.flag (Clock.calibration b) = true ∧
      ∃ e ∈ o.events, e.isRefused ∧ e.At b.ports) := by
  intro o
  by_cases hfit : values.fit
  · have hload : loadValues values = Block.all.forM fun b => loadBlock b (values.ofBlock b) := by
      rw [loadValues, if_pos hfit]
    rw [hload] at hspared
    have hend : LoadEnd c.registers o := by
      show LoadEnd _ ((loadValues values).run (bus refused) (n, c))
      rw [hload]
      exact loadEnd_loadBlocks refused values Block.all (n, c) hspared
    -- the clock of the block that was interrupted is the only one that is left on
    cases hend with
    | finished result accepted off =>
      refine ⟨fun b hb => ?_, fun _ => off, fun hio => ?_⟩
      · rw [off b hb]
        simpa using fun e he href => by simp [accepted e he] at href
      · cases result.symm.trans hio
    | interrupted b₀ result refusal only on off =>
      refine ⟨fun b hb => ?_, fun hresult => ?_, fun _ => ⟨b₀, on, refusal⟩⟩
      · by_cases hb₀ : b = b₀
        · subst hb₀
          exact iff_of_true on refusal
        · refine iff_of_false (by simp [off b hb₀ hb]) ?_
          rintro ⟨e, he, href, hat⟩
          exact hb₀ (Event.block_eq_of_at hat (only e he href))
      · rcases hresult with hresult | hresult <;> cases result.symm.trans hresult
  · have hrun : o = ⟨.error .invalidArgument, (n, c), []⟩ := by
      show (loadValues values).run (bus refused) (n, c) = _
      rw [loadValues, if_neg hfit]
      rfl
    rw [hrun]
    exact ⟨fun b hb => by simp [hb], fun _ _ hb => hb, by rintro ⟨⟩⟩

/-- A load of both filters is cut off at the receive filter: the clock of the transmit filter is off
again by then. -/
theorem load_leaves_clock_of_second_block :
    let values : Values := fun slot =>
      if slot = .txLpfI then some 20 else if slot = .rxLpfI then some 30 else none
    let o := (loadValues values).run (bus (· == 11)) (0, initial)
    o.result = .error .io ∧
      o.state.2.registers.flag (Clock.calibration .txLpf) = false ∧
      o.state.2.registers.flag (Clock.calibration .rxLpf) = true := by
  intro values o
  have hspared : ∀ e ∈ o.events, e.isRefused → ¬ e.At [clockEnable] := by decide +kernel
  obtain ⟨hclocks, -⟩ := load_leaves_clock_iff_interrupted (· == 11) 0 initial values hspared
  have htx : ¬ ∃ e ∈ o.events, e.isRefused ∧ e.At Block.txLpf.ports := by decide +kernel
  have hrx : ∃ e ∈ o.events, e.isRefused ∧ e.At Block.rxLpf.ports := by decide +kernel
  exact ⟨rfl, Bool.eq_false_iff.2 (mt (hclocks .txLpf rfl).1 htx),
    (hclocks .rxLpf rfl).2 hrx⟩

/-- With every access to the register of the clocks accepted, a clock can be left on nevertheless.
Here the first access to the block is refused, right after its clock has been switched on. -/
theorem load_leaves_clock_on :
    let values : Values := fun slot => if slot = .lpfTuning then some 5 else none
    let o := (loadValues values).run (bus (· == 2)) (0, initial)
    (∀ e ∈ o.events, e.isRefused → ¬ e.At [clockEnable]) ∧ o.result = .error .io ∧
      initial.registers.flag (Clock.calibration .lpfTuning) = false ∧
      o.state.2.registers.flag (Clock.calibration .lpfTuning) = true := by
  intro values o
  exact ⟨by decide +kernel, rfl, by decide, by decide +kernel⟩

end Calibration

end Transceiver
