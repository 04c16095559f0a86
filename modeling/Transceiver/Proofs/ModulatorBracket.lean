import Transceiver.Proofs.Programming

/-!
# The clocks of the modulators

Tuning a half is bracketed by two switches of the clocks of the modulators. All of the programming
lies between the two, so it happens with both clocks on, and the second switch is attempted however
the programming ends. Both switches are one change of one register that keeps its other bits.
-/

namespace Transceiver

open Procedure Register Chip

variable {σ : Type}

/-! ## Contents along a run -/

/-- A register holds what it held before some events, or what one of them has written. -/
theorem RegisterFile.get_after_cases (events : List Event) (r : RegisterFile) (address : Address) :
    (r.after events).get address = r.get address ∨
      ∃ value, .write address value true ∈ events ∧ (r.after events).get address = value := by
  induction events generalizing r with
  | nil => exact .inl rfl
  | cons e events ih =>
    rcases ih (r.step e) with hkept | ⟨value, hmem, hvalue⟩
    · rw [after_cons, hkept]
      match e with
      | .write a v true =>
        rw [step, get_set]
        split
        · next ha => exact .inr ⟨v, by simp [ha], rfl⟩
        · exact .inl rfl
      | .write _ _ false | .read _ _ | .note _ | .pause _ => exact .inl rfl
    · exact .inr ⟨value, List.mem_cons_of_mem _ hmem, hvalue⟩

/-- The one value that a change of a stored register writes. -/
theorem Procedure.eq_of_write_mem_modify (refused : Nat → Bool) {address a : Address}
    (h : (Site.at address).isStored) {change : Byte → Byte} {s : Nat × Chip} {value : Byte}
    {accepted : Bool}
    (hmem : .write a value accepted ∈ ((modify address change).run (bus refused) s).events) :
    a = address ∧ value = change (s.2.registers.get address) := by
  rw [modify] at hmem
  rcases run_readByte_stored refused h s with hread | hread
  · rw [run_bind_of_error _ _ (by rw [hread]), hread] at hmem
    simp at hmem
  · rw [run_bind_of_ok _ _ (by rw [hread]), hread] at hmem
    have hwrite := (List.mem_cons.1 hmem).resolve_left (by simp)
    have hvalue : (writeByte address (change (s.2.registers.get address))).WritesOnly fun a v =>
        a = address ∧ v = change (s.2.registers.get address) :=
      (writesOnly_writeByte _ _).2 ⟨rfl, rfl⟩
    exact hvalue.of_mem _ _ hwrite

/-- A change of a register starts with a read of it. -/
theorem Procedure.events_modify (t : Transport σ) (address : Address) (change : Byte → Byte)
    (s : σ) : ∃ answer rest,
      ((modify address change).run t s).events = .read address answer :: rest :=
  ⟨_, _, rfl⟩

/-! ## Faults that are noted -/

namespace Procedure

variable {α : Type} (t : Transport σ) {p : Procedure α} {s : σ} (entry : Note)

/-- A procedure that ends well notes nothing. -/
theorem run_noting_of_ok {a : α} (h : (p.run t s).result = .ok a) :
    (p.noting entry).run t s = p.run t s := by
  have hattempt : (p.attempt.run t s).result = .ok (.ok a) := by rw [run_attempt, h]
  rw [noting, run_bind_of_ok t _ hattempt, run_attempt]
  dsimp only
  rw [run_pure, List.append_nil, ← h]

/-- A fault is noted after everything else. -/
theorem run_noting_of_error {fault : Fault} (h : (p.run t s).result = .error fault) :
    (p.noting entry).run t s =
      ⟨.error fault, (p.run t s).state, (p.run t s).events ++ [.note entry]⟩ := by
  have hattempt : (p.attempt.run t s).result = .ok (.error fault) := by rw [run_attempt, h]
  rw [noting, run_bind_of_ok t _ hattempt, run_attempt]
  rfl

end Procedure

namespace Synthesizer

/-! ## The parts of a run -/

/-- What is entered into the journal before the clocks are switched on. -/
def announcements (h : Half) (request : Nat) : List Event :=
  (if clampHz request = request then [] else [.note (.clampedFrequency (clampHz request))]) ++
    [.note (.dividers h (Divider.ofHz (clampHz request)))]

/-- Nothing is accessed before the clocks are switched on. -/
theorem isAccess_of_mem_announcements {h : Half} {request : Nat} {e : Event}
    (he : e ∈ announcements h request) : e.isAccess = false := by
  unfold announcements at he
  split at he <;> grind [Event.isAccess]

variable (t : Transport σ) (h : Half) (request : Nat) (s : σ)

/-- The journal of a tuning begins with its announcements. -/
theorem run_announced {α : Type} (p : Procedure α) :
    (do
      noteClamped (clampHz request) request
      log (.dividers h (Divider.ofHz (clampHz request)))
      p).run t s =
      ⟨(p.run t s).result, (p.run t s).state, announcements h request ++ (p.run t s).events⟩ := by
  unfold noteClamped announcements
  split <;> rfl

/-- If the clocks cannot be switched on, that is the end of it. -/
theorem run_setFrequency_of_error {fault : Fault}
    (hon : ((clockModulators true).run t s).result = .error fault) :
    (setFrequency h request).run t s =
      ⟨.error fault, ((clockModulators true).run t s).state,
        announcements h request ++ (((clockModulators true).run t s).events ++
          [.note .modulatorsFailed])⟩ := by
  have hnoted := run_noting_of_error t .modulatorsFailed hon
  rw [setFrequency_eq, run_announced, run_bind_of_error t _ (by rw [hnoted]), hnoted]

/-- Once the clocks are on, the half is programmed and the clocks are switched off again. -/
theorem run_setFrequency_of_ok (hon : ((clockModulators true).run t s).result = .ok ()) :
    let on := (clockModulators true).run t s
    let body := (program h (clampHz request) (Divider.ofHz request)).run t on.state
    let off := (clockModulators false).run t body.state
    (setFrequency h request).run t s =
      ⟨(body.result *> off.result).map fun _ => Divider.ofHz request, off.state,
        announcements h request ++ (on.events ++ (body.events ++ off.events))⟩ := by
  intro on body off
  have hnoted := run_noting_of_ok t .modulatorsFailed hon
  have hforced : (forceAll [program h (clampHz request) (Divider.ofHz request),
      clockModulators false]).run t on.state =
      ⟨body.result *> off.result, off.state, body.events ++ off.events⟩ := by
    rw [run_forceAll_cons, run_forceAll_singleton]
  rw [setFrequency_eq, run_announced, ofHz_clampHz, run_bind_of_ok t _ (by rw [hnoted, hon]),
    hnoted, bind_pure_comp, run_map, hforced]

/-! ## The register with the clocks -/

/-- Two contents of the register with the clocks differ in those of the modulators at most. -/
def SameOtherClocks (old new : Byte) : Prop :=
  ∀ i, i ≠ Clock.txDsm.offset → i ≠ Clock.rxDsm.offset → new.getLsbD i = old.getLsbD i

theorem SameOtherClocks.refl (old : Byte) : SameOtherClocks old old :=
  fun _ _ _ => rfl

/-- Differences in the clocks of the modulators only add up to differences in these only. -/
theorem SameOtherClocks.trans {old mid new : Byte} (hleft : SameOtherClocks old mid)
    (hright : SameOtherClocks mid new) : SameOtherClocks old new :=
  fun i htx hrx => (hright i htx hrx).trans (hleft i htx hrx)

/-- Switching the clocks of the modulators leaves the others alone. -/
theorem sameOtherClocks_put (old : Byte) (on : Bool) :
    SameOtherClocks old (Clock.rxDsm.put (Clock.txDsm.put old on) on) := by
  intro i htx hrx
  have houtside {flag : Flag} (hne : i ≠ flag.offset) :
      ¬ (flag.offset ≤ i ∧ i < flag.offset + 1) := by
    omega
  rw [BitField.put, BitField.getLsbD_set, if_neg (houtside hrx), BitField.put,
    BitField.getLsbD_set, if_neg (houtside htx)]

variable (refused : Nat → Bool) (on : Bool)

/-- Whatever is written while the clocks are switched goes to their register, with the other clocks
as they were. -/
theorem eq_of_write_mem_clockModulators {s : Nat × Chip} {a : Address} {value : Byte}
    {accepted : Bool}
    (hmem : .write a value accepted ∈ ((clockModulators on).run (bus refused) s).events) :
    a = clockEnable ∧ SameOtherClocks (s.2.registers.get clockEnable) value := by
  obtain ⟨ha, rfl⟩ := eq_of_write_mem_modify refused rfl hmem
  exact ⟨ha, sameOtherClocks_put _ on⟩

/-- Whether it is refused or not, switching leaves the other clocks alone. -/
theorem sameOtherClocks_clockModulators (s : Nat × Chip) :
    SameOtherClocks (s.2.registers.get clockEnable)
      (((clockModulators on).run (bus refused) s).state.2.registers.get clockEnable) := by
  rw [registers_run]
  rcases RegisterFile.get_after_cases ((clockModulators on).run (bus refused) s).events
    s.2.registers clockEnable with hkept | ⟨value, hmem, hvalue⟩
  · rw [hkept]
    exact .refl _
  · rw [hvalue]
    exact (eq_of_write_mem_clockModulators refused on hmem).2

/-- The switch goes through as a whole or changes nothing. -/
theorem atomic_clockModulators (s : Nat × Chip) :
    ((clockModulators on).run (bus refused) s).Atomic s.2.registers (clocked on s.2.registers)
      (.ok ()) :=
  atomic_modify refused (show (Site.at clockEnable).isStored from rfl)
    (fun clocks => Clock.rxDsm.put (Clock.txDsm.put clocks on) on) s

variable {refused on}

/-- A switching that ends well has switched both clocks and nothing else. -/
theorem registers_of_clockModulators_ok {s : Nat × Chip}
    (hok : ((clockModulators on).run (bus refused) s).result = .ok ()) :
    ((clockModulators on).run (bus refused) s).state.2.registers = clocked on s.2.registers := by
  cases atomic_clockModulators refused on s with
  | refused refusal result registers => cases result.symm.trans hok
  | accepted accepted result registers => exact registers

/-- Switching the clocks fails only if an access is refused. -/
theorem clockModulators_ok_of_accepted {s : Nat × Chip}
    (haccepted : ∀ e ∈ ((clockModulators on).run (bus refused) s).events, e.isRefused = false) :
    ((clockModulators on).run (bus refused) s).result = .ok () := by
  cases atomic_clockModulators refused on s with
  | refused refusal result registers =>
    obtain ⟨e, he, hrefused⟩ := refusal
    cases (haccepted e he).symm.trans hrefused
  | accepted accepted result registers => exact result

/-! ## The bracket -/

/-- What programming a half writes. -/
theorem mem_programmed_of_write {h : Half} {hz : Nat} {d : Divider} {t : Transport σ} {s : σ}
    {address : Address} {value : Byte} {accepted : Bool}
    (hmem : .write address value accepted ∈ ((program h hz d).run t s).events) :
    address ∈ programmed h := by
  have hcareful : (program h hz d).Careful (fun address _ => address ∈ programmed h)
      fun _ => True := careful_program (fun address hmem _ => hmem) hz d
  exact hcareful.writesOnly.of_mem t s hmem

/-- Between the two switchings the register of the clocks is not written. -/
theorem get_clockEnable_after_program {h : Half} {hz : Nat} {d : Divider} {t : Transport σ} {s : σ}
    {pre : List Event} (hpre : ∀ e ∈ pre, e ∈ ((program h hz d).run t s).events)
    (r : RegisterFile) : (r.after pre).get clockEnable = r.get clockEnable := by
  have hne : clockEnable ∉ programmed h := by cases h <;> decide
  exact RegisterFile.get_after (fun value hmem => hne (mem_programmed_of_write (hpre _ hmem))) r

/-- An event of two runs that the first one does not come to happens in the second. -/
theorem append_split_right {xs ys pre post : List Event} {e : Event}
    (heq : xs ++ ys = pre ++ e :: post) (hout : e ∉ xs) :
    ∃ pre', pre = xs ++ pre' ∧ ys = pre' ++ e :: post := by
  have hne : ∀ x ∈ xs, (x == e) = false := fun x hx => beq_eq_false_iff_ne.2 fun h => hout (h ▸ hx)
  exact Event.in_right heq hne (beq_self_eq_true e)

/-- An event of two runs that the second one does not come to happens in the first. -/
theorem append_split_left {xs ys pre post : List Event} {e : Event}
    (heq : xs ++ ys = pre ++ e :: post) (hout : e ∉ ys) : ∀ x ∈ pre, x ∈ xs := by
  rcases List.append_eq_append_iff.1 heq with ⟨pre', rfl, hys⟩ | ⟨mid, rfl, -⟩
  · exact absurd (hys ▸ by simp) hout
  · exact fun x hx => List.mem_append_left _ hx

section Bracket

variable (refused : Nat → Bool) (h : Half) (request : Nat) (s : Nat × Chip)

/-- Whatever else happens while a half is tuned, it happens with both modulators clocked. -/
theorem clocked_at_write {pre post : List Event} {address : Address} {value : Byte}
    (hevents : ((setFrequency h request).run (bus refused) s).events =
      pre ++ .write address value true :: post) (hne : address ≠ clockEnable) :
    (s.2.registers.after pre).flag Clock.txDsm = true ∧
      (s.2.registers.after pre).flag Clock.rxDsm = true := by
  have hannounced : .write address value true ∉ announcements h request := fun hmem => by
    cases isAccess_of_mem_announcements hmem
  have hswitch (on : Bool) (s' : Nat × Chip) :
      .write address value true ∉ ((clockModulators on).run (bus refused) s').events :=
    fun hmem => hne (eq_of_write_mem_clockModulators refused on hmem).1
  cases hon : ((clockModulators true).run (bus refused) s).result with
  | error fault =>
    -- neither the notes nor the switch write anything else
    have hmem : .write address value true ∈
        ((setFrequency h request).run (bus refused) s).events := by
      rw [hevents]
      simp
    rw [run_setFrequency_of_error _ h request s hon] at hmem
    simp [hannounced, hswitch] at hmem
  | ok u =>
    rw [run_setFrequency_of_ok _ h request s hon] at hevents
    obtain ⟨tail, rfl, htail⟩ := append_split_right hevents hannounced
    obtain ⟨inner, rfl, hinner⟩ := append_split_right htail (hswitch true s)
    have hbody := append_split_left hinner (hswitch false _)
    have hnotes : s.2.registers.after (announcements h request) = s.2.registers :=
      RegisterFile.after_eq_self (fun a v hmem => by cases isAccess_of_mem_announcements hmem) _
    have hflags := flags_clocked true s.2.registers
    unfold RegisterFile.flag at hflags ⊢
    rw [RegisterFile.after_append, RegisterFile.after_append, hnotes, ← registers_run,
      registers_of_clockModulators_ok hon]
    exact (get_clockEnable_after_program hbody (clocked true s.2.registers)).symm ▸ hflags

/-- No other clock is ever switched while a half is tuned. -/
theorem sameOtherClocks_of_write {value : Byte}
    (hmem : .write clockEnable value true ∈
      ((setFrequency h request).run (bus refused) s).events) :
    SameOtherClocks (s.2.registers.get clockEnable) value := by
  have hannounced : .write clockEnable value true ∉ announcements h request := fun hmem => by
    cases isAccess_of_mem_announcements hmem
  have hon := sameOtherClocks_clockModulators refused true s
  -- a write to the clocks is one of the two switchings
  cases hresult : ((clockModulators true).run (bus refused) s).result with
  | error fault =>
    rw [run_setFrequency_of_error _ h request s hresult] at hmem
    simp only [List.mem_append, hannounced, List.mem_singleton, reduceCtorEq, or_false,
      false_or] at hmem
    exact (eq_of_write_mem_clockModulators refused true hmem).2
  | ok u =>
    rw [run_setFrequency_of_ok _ h request s hresult] at hmem
    simp only [List.mem_append, hannounced, false_or] at hmem
    rcases hmem with hmem | hmem | hmem
    · exact (eq_of_write_mem_clockModulators refused true hmem).2
    · have hne : clockEnable ∉ programmed h := by cases h <;> decide
      exact absurd (mem_programmed_of_write hmem) hne
    · refine hon.trans ?_
      have hoff := (eq_of_write_mem_clockModulators refused false hmem).2
      rwa [registers_run, get_clockEnable_after_program fun _ => id] at hoff

end Bracket

/-- Tuning a half is a bracket around its programming, whatever accesses are refused. If the clocks
of the modulators cannot be switched on, its fault is the result, and nothing else is accessed.
Otherwise the half is programmed and the clocks are switched off, each whatever has become of what
was before it, and the first fault is the result. Nothing but the register with the clocks is
written while a modulator is without its clock, and no other clock in that register ever changes. -/
theorem setFrequency_brackets (refused : Nat → Bool) (h : Half) (request : Nat) (s : Nat × Chip) :
    let o := (setFrequency h request).run (bus refused) s
    let on := (clockModulators true).run (bus refused) s
    let body := (program h (clampHz request) (Divider.ofHz request)).run (bus refused) on.state
    let off := (clockModulators false).run (bus refused) body.state
    let r := s.2.registers
    (∀ fault, on.result = .error fault → o.result = .error fault ∧
      o.events.filter Event.isAccess = on.events.filter Event.isAccess) ∧
    (on.result = .ok () →
      o.events.filter Event.isAccess =
        (on.events ++ body.events ++ off.events).filter Event.isAccess ∧
      (∃ answer, .read clockEnable answer ∈ off.events) ∧
      ((∀ e ∈ off.events, e.isRefused = false) →
        o.state.2.registers.flag Clock.txDsm = false ∧
        o.state.2.registers.flag Clock.rxDsm = false) ∧
      o.result = match body.result, off.result with
        | .error fault, _ => .error fault
        | .ok (), .error fault => .error fault
        | .ok (), .ok () => .ok (Divider.ofHz request)) ∧
    (∀ pre address value post, o.events = pre ++ .write address value true :: post →
      address ≠ clockEnable →
        (r.after pre).flag Clock.txDsm = true ∧ (r.after pre).flag Clock.rxDsm = true) ∧
    ∀ pre post, o.events = pre ++ post → ∀ i, i ≠ Clock.txDsm.offset → i ≠ Clock.rxDsm.offset →
      ((r.after pre).get clockEnable).getLsbD i = (r.get clockEnable).getLsbD i := by
  intro o on body off r
  -- the announcements are notes and drop out of the accesses
  have hnotes : (announcements h request).filter Event.isAccess = [] :=
    List.filter_eq_nil_iff.2 fun e he => by simp [isAccess_of_mem_announcements he]
  refine ⟨fun fault hon => ?_, fun hon => ?_, fun pre address value post hevents hne => ?_,
    fun pre post hevents => ?_⟩
  · have hrun : o = _ := run_setFrequency_of_error (bus refused) h request s hon
    rw [hrun]
    refine ⟨rfl, ?_⟩
    simp [hnotes, Event.isAccess, on]
  · have hrun : o = _ := run_setFrequency_of_ok (bus refused) h request s hon
    rw [hrun]
    refine ⟨?_, ?_, fun haccepted => ?_, ?_⟩
    · simp [hnotes, on, body, off]
    · obtain ⟨answer, rest, hevents⟩ := events_modify (bus refused) clockEnable
        (fun clocks => Clock.rxDsm.put (Clock.txDsm.put clocks false) false) body.state
      exact ⟨answer, hevents ▸ List.mem_cons_self⟩
    · show off.state.2.registers.flag _ = _ ∧ off.state.2.registers.flag _ = _
      rw [registers_of_clockModulators_ok (clockModulators_ok_of_accepted haccepted)]
      exact flags_clocked false _
    · show (body.result *> off.result).map _ = _
      rcases body.result with _ | _ <;> rcases off.result with _ | _ <;> rfl
  · exact clocked_at_write refused h request s hevents hne
  -- the register holds what was last written to it, or what it held at the start
  · rcases RegisterFile.get_after_cases pre r clockEnable with hkept | ⟨value, hmem, hvalue⟩
    · rw [hkept]
      exact fun _ _ _ => rfl
    · rw [hvalue]
      have hwrite : .write clockEnable value true ∈ o.events := by
        rw [hevents]
        exact List.mem_append_left _ hmem
      exact sameOtherClocks_of_write refused h request s hwrite

/-- The band code cannot be written, and the clocks are off again nevertheless. -/
theorem setFrequency_brackets_refused :
    let o := (setFrequency .rx 1000000000).run (bus (· == 5)) (0, Chip.initial)
    o.result = .error .io ∧ o.state.2.registers.flag Clock.txDsm = false ∧
      o.state.2.registers.flag Clock.rxDsm = false := by
  intro o
  obtain ⟨-, hswitched, -⟩ := setFrequency_brackets (· == 5) .rx 1000000000 (0, Chip.initial)
  obtain ⟨-, -, hoff, hresult⟩ := hswitched rfl
  exact ⟨hresult.trans rfl, hoff (by decide)⟩

end Synthesizer

end Transceiver
