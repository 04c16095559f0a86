import Transceiver.Proofs.Histories
import Transceiver.Proofs.NormalOperation
import Transceiver.Proofs.Upholding

/-!
# Switching a filter

The mode of a filter is spread over two registers, and every switch writes the one with the enable
bit first. On the way the filter has the new enable bit and the old bypass bit. This is a mode in
all switches but one: a bypassed filter that is to be enabled is enabled and bypassed until its
second register is written, and it stays so if that write never comes.
-/

namespace Transceiver

open Procedure Register Chip

/-! ## Registers that have been written -/

/-- Among some events a write to a register has been accepted. -/
def Written (address : Address) (events : List Event) : Prop :=
  ∃ value, .write address value true ∈ events

/-- A register that has been written holds one of the values written to it. -/
theorem RegisterFile.get_after_of_written {address : Address} {events : List Event}
    (h : Written address events) (r : RegisterFile) :
    ∃ value, .write address value true ∈ events ∧ (r.after events).get address = value := by
  induction events generalizing r with
  | nil => simp [Written] at h
  | cons e events ih =>
    by_cases hlater : Written address events
    · obtain ⟨value, hmem, hvalue⟩ := ih hlater (r.step e)
      exact ⟨value, List.mem_cons_of_mem _ hmem, hvalue⟩
    · -- the first event is the last write to the register
      obtain ⟨value, hmem⟩ := h
      obtain rfl : _ = e := (List.mem_cons.1 hmem).resolve_right fun hin => hlater ⟨value, hin⟩
      refine ⟨value, List.mem_cons_self, ?_⟩
      rw [after_cons, get_after (fun value hin => hlater ⟨value, hin⟩)]
      exact get_set_self r address value

/-- A flag that is only ever written with one value has that value once it has been written. -/
theorem RegisterFile.flag_after_of_written {f : Flag} {on : Bool} {events : List Event}
    (h : Written f.address events)
    (hvalue : ∀ value, .write f.address value true ∈ events → f.isSet value = on)
    (r : RegisterFile) : (r.after events).flag f = on := by
  obtain ⟨value, hmem, hget⟩ := get_after_of_written h r
  rw [flag, hget, hvalue value hmem]

theorem RegisterFile.flag_after_of_not_written {f : Flag} {events : List Event}
    (h : ¬ Written f.address events) (r : RegisterFile) : (r.after events).flag f = r.flag f := by
  rw [flag, get_after (fun value hmem => h ⟨value, hmem⟩), flag]

namespace LowPass

/-! ## Modes and flags -/

theorem shows_mode (c : Chip) (h : Half) : c.shows (mode h) = modeOf h c.registers :=
  shows_of_wp ((wp_mode h _).2 rfl)

theorem modeOf_eq_ok_iff {h : Half} {r : RegisterFile} {m : Mode} :
    modeOf h r = .ok m ↔
      r.flag (Lpf.enable h) = m.enabled ∧ r.flag (Lpf.bypass h) = m.isBypassed := by
  unfold modeOf
  cases r.flag (Lpf.enable h) <;> cases r.flag (Lpf.bypass h) <;> cases m <;> decide

/-- A filter has no mode while it is enabled and bypassed. -/
theorem modeOf_eq_error_iff {h : Half} {r : RegisterFile} :
    modeOf h r = .error .unexpectedState ↔
      r.flag (Lpf.enable h) = true ∧ r.flag (Lpf.bypass h) = true := by
  unfold modeOf
  cases r.flag (Lpf.enable h) <;> cases r.flag (Lpf.bypass h) <;> decide

/-- It has one otherwise. -/
theorem exists_mode_of_ne {h : Half} {r : RegisterFile}
    (hne : modeOf h r ≠ .error .unexpectedState) : ∃ m, modeOf h r = .ok m := by
  rw [Ne, modeOf_eq_error_iff] at hne
  unfold modeOf
  -- of the four combinations of the two bits only the one that is left out has no mode
  generalize r.flag (Lpf.enable h) = on, r.flag (Lpf.bypass h) = bypassed at hne ⊢
  cases on <;> cases bypassed
  · exact ⟨.disabled, rfl⟩
  · exact ⟨.bypassed, rfl⟩
  · exact ⟨.normal, rfl⟩
  · exact (hne ⟨rfl, rfl⟩).elim

/-! ## What a switch writes -/

/-- A way to switch a filter. -/
inductive Switch where
  /-- To a mode. -/
  | mode (target : Mode)
  /-- On or off, and out of bypass. -/
  | enable (on : Bool)
deriving Repr, DecidableEq

namespace Switch

/-- Switches a filter. -/
def procedure (h : Half) : Switch → Procedure Unit
  | .mode target => setMode h target
  | .enable on => LowPass.enable h on

/-- The mode that a filter is switched to. -/
def target : Switch → Mode
  | .mode target => target
  | .enable on => if on then .normal else .disabled

end Switch

/-- After the events `past`, a switch to a mode may write the enable bit of the mode, and once that
is written, the bypass bit of the mode. -/
def SwitchAllowed (h : Half) (target : Mode) (past : List Event) (e : Event) : Prop :=
  ∀ address value, e = .write address value true →
    (address = (Lpf.enable h).address ∧ (Lpf.enable h).isSet value = target.enabled) ∨
      (address = (Lpf.bypass h).address ∧ (Lpf.bypass h).isSet value = target.isBypassed ∧
        Written (Lpf.enable h).address past)

section Writes

variable {h : Half} {target : Mode} {past : List Event}

theorem switchAllowed_read (address : Address) (answer : Option Byte) :
    SwitchAllowed h target past (.read address answer) := by
  rintro _ _ ⟨⟩

theorem ensures_writeEnable (control : Byte) {on : Bool} (hon : target.enabled = on) :
    (writeByte (Lpf.enable h).address ((Lpf.enable h).put control on)).Ensures
      (SwitchAllowed h target)
      (fun result past' => result = .ok () → Written (Lpf.enable h).address past') past := by
  apply ensures_writeByte
  · rintro accepted _ _ ⟨⟩
    exact .inl ⟨rfl, by rw [BitField.isSet_put, hon]⟩
  · rintro ⟨⟩
  · exact fun _ => ⟨_, List.mem_append_right _ (List.mem_singleton_self _)⟩

theorem ensures_writeBypass (control : Byte) {on : Bool} (hon : target.isBypassed = on)
    (hwritten : Written (Lpf.enable h).address past) :
    (writeByte (Lpf.bypass h).address ((Lpf.bypass h).put control on)).Ensures
      (SwitchAllowed h target) (fun _ _ => True) past := by
  apply ensures_writeByte
  · rintro accepted _ _ ⟨⟩
    exact .inr ⟨rfl, by rw [BitField.isSet_put, hon], hwritten⟩
  · trivial
  · trivial

theorem ensures_setMode : (setMode h target).Ensures (SwitchAllowed h target)
    (fun _ _ => True) past := by
  apply ensures_readByte_bind (fun _ => switchAllowed_read _ _) trivial
  intro control
  apply ensures_readByte_bind (fun _ => switchAllowed_read _ _) trivial
  intro bypass
  apply (ensures_writeEnable control rfl).bind
  · exact fun _ _ hwritten => ensures_writeBypass bypass rfl (hwritten rfl)
  · exact fun _ _ _ => trivial

theorem ensures_enable {on : Bool} (henabled : target.enabled = on)
    (hbypassed : target.isBypassed = false) :
    (enable h on).Ensures (SwitchAllowed h target) (fun _ _ => True) past := by
  have hput : (put (Lpf.enable h) on).Ensures (SwitchAllowed h target)
      (fun result past' => result = .ok () → Written (Lpf.enable h).address past') past :=
    ensures_readByte_bind (fun _ => switchAllowed_read _ _) nofun fun control =>
      ensures_writeEnable control henabled
  apply hput.bind
  · intro _ past' hwritten
    apply ensures_readByte_bind (fun _ => switchAllowed_read _ _) trivial
    intro bypass
    obtain ⟨value, hmem⟩ := hwritten rfl
    split
    · exact ensures_writeBypass bypass hbypassed ⟨value, List.mem_append_left _ hmem⟩
    · trivial
  · exact fun _ _ _ => trivial

theorem ensures_switch (h : Half) (switch : Switch) :
    (switch.procedure h).Ensures (SwitchAllowed h switch.target) (fun _ _ => True) [] := by
  cases switch with
  | mode target => exact ensures_setMode
  | enable on => cases on <;> exact ensures_enable rfl rfl

end Writes

/-! ## The mode on the way -/

/-- Along a switch, each of the two bits is as it was until its register is written, and as the
target has it from then on. The register with the enable bit is written first. -/
theorem flags_of_allowed {h : Half} {target : Mode} {pre rest : List Event}
    (hallowed : ∀ past e later, pre ++ rest = past ++ e :: later → SwitchAllowed h target past e)
    (r : RegisterFile) :
    (Written (Lpf.enable h).address pre →
      (r.after pre).flag (Lpf.enable h) = target.enabled) ∧
    (Written (Lpf.bypass h).address pre → Written (Lpf.enable h).address pre ∧
      (r.after pre).flag (Lpf.bypass h) = target.isBypassed) := by
  have hne : (Lpf.enable h).address ≠ (Lpf.bypass h).address := by cases h <;> decide
  -- every write of the two registers obeys the rule at its own place in the journal
  have hwrite {address : Address} {value : Byte} (hmem : .write address value true ∈ pre) :
      ∃ past, (∀ x ∈ past, x ∈ pre) ∧
        SwitchAllowed h target past (.write address value true) := by
    obtain ⟨past, later, rfl⟩ := List.append_of_mem hmem
    exact ⟨past, fun _ => List.mem_append_left _, hallowed past _ (later ++ rest) (by simp)⟩
  refine ⟨fun hw => ?_, fun hw => ⟨?_, ?_⟩⟩
  · refine RegisterFile.flag_after_of_written hw (fun value hmem => ?_) r
    obtain ⟨past, -, hrule⟩ := hwrite hmem
    rcases hrule _ _ rfl with ⟨-, hset⟩ | ⟨heq, -⟩
    · exact hset
    · exact absurd heq hne
  · obtain ⟨value, hmem⟩ := hw
    obtain ⟨past, hpast, hrule⟩ := hwrite hmem
    rcases hrule _ _ rfl with ⟨heq, -⟩ | ⟨-, -, first, hfirst⟩
    · exact absurd heq.symm hne
    · exact ⟨first, hpast _ hfirst⟩
  · refine RegisterFile.flag_after_of_written hw (fun value hmem => ?_) r
    obtain ⟨past, -, hrule⟩ := hwrite hmem
    rcases hrule _ _ rfl with ⟨heq, -⟩ | ⟨-, hset, -⟩
    · exact absurd heq.symm hne
    · exact hset

/-- A bypassed filter is on its way to normal operation: its enable bit has been written, and its
bypass bit has not. -/
structure HalfEnabled (h : Half) (before : Mode) (switch : Switch) (past : List Event) : Prop where
  before : before = .bypassed
  target : switch.target = .normal
  enable : Written (Lpf.enable h).address past
  bypass : ¬ Written (Lpf.bypass h).address past

/-- Along a switch, a filter that had a mode has none exactly while it is half enabled. -/
theorem modeOf_after_eq_error_iff {h : Half} {switch : Switch} {before : Mode}
    {pre rest : List Event}
    (hallowed : ∀ past e later, pre ++ rest = past ++ e :: later →
      SwitchAllowed h switch.target past e)
    {r : RegisterFile} (hbefore : modeOf h r = .ok before) :
    modeOf h (r.after pre) = .error .unexpectedState ↔ HalfEnabled h before switch pre := by
  obtain ⟨henable, hbypass⟩ := modeOf_eq_ok_iff.1 hbefore
  obtain ⟨hnewEnable, hnewBypass⟩ := flags_of_allowed hallowed r
  have hmodes : ∀ m : Mode, ¬ (m.enabled = true ∧ m.isBypassed = true) := by
    rintro (_ | _ | _) <;> decide
  rw [modeOf_eq_error_iff]
  constructor
  · rintro ⟨hon, hbypassed⟩
    have hkept : ¬ Written (Lpf.bypass h).address pre := by
      -- after both writes the bits are those of the target
      intro hw
      obtain ⟨hfirst, hset⟩ := hnewBypass hw
      exact hmodes switch.target ⟨(hnewEnable hfirst).symm.trans hon, hset.symm.trans hbypassed⟩
    rw [RegisterFile.flag_after_of_not_written hkept, hbypass] at hbypassed
    have hwritten : Written (Lpf.enable h).address pre := by
      -- before any write the bits are those of the mode before
      by_contra hw
      rw [RegisterFile.flag_after_of_not_written hw, henable] at hon
      exact hmodes before ⟨hon, hbypassed⟩
    rw [hnewEnable hwritten] at hon
    refine ⟨?_, ?_, hwritten, hkept⟩
    · cases before <;> first | rfl | cases hbypassed
    · generalize switch.target = target at hon
      cases target <;> first | rfl | cases hon
  · rintro ⟨rfl, htarget, hwritten, hkept⟩
    rw [hnewEnable hwritten, htarget, RegisterFile.flag_after_of_not_written hkept, hbypass]
    exact ⟨rfl, rfl⟩

/-- A switch that ends well has set the mode that it was to set. -/
theorem upholds_switch (h : Half) (switch : Switch) (r : RegisterFile) :
    (switch.procedure h).Upholds (fun _ => True)
      (fun result r' => ∀ u, result = .ok u → modeOf h r' = .ok switch.target) r := by
  cases switch with
  | mode target =>
    have hcareful : (setMode h target).Careful (fun _ _ => True) fun _ => False :=
      careful_setMode (fun _ _ => trivial) h target
    exact hcareful.upholds_of_wp ((wp_setMode h target r).2 (modeOf_moded h target r))
  | enable on =>
    have hcareful : (enable h on).Careful (fun _ _ => True) fun _ => False :=
      careful_enable (fun _ _ => trivial) h on
    exact hcareful.upholds_of_wp ((wp_enable h on r).2 (modeOf_moded h _ r))

/-- A filter that has a mode is switched, whatever accesses are refused. At every moment of the
switch, and also where it ends, the filter shows a mode, unless it was bypassed, is switched to
normal operation, and has had its enable bit written and its bypass bit not. Exactly then it shows
none. A switch that ends well has set the mode that it was to set. -/
theorem without_mode_iff_half_enabled (h : Half) (switch : Switch) (refused : Nat → Bool) (n : Nat)
    (c : Chip) (before : Mode) (hbefore : c.shows (mode h) = .ok before) :
    let o := (switch.procedure h).run (bus refused) (n, c)
    (∀ pre rest, o.events = pre ++ rest →
      let shown := { c with registers := c.registers.after pre : Chip }.shows (mode h)
      (shown = .error .unexpectedState ↔ HalfEnabled h before switch pre) ∧
      (¬ HalfEnabled h before switch pre → ∃ m, shown = .ok m)) ∧
    (o.state.2.shows (mode h) = .error .unexpectedState ↔
      HalfEnabled h before switch o.events) ∧
    (¬ HalfEnabled h before switch o.events → ∃ m, o.state.2.shows (mode h) = .ok m) ∧
    (o.result = .ok () → o.state.2.shows (mode h) = .ok switch.target) := by
  intro o
  rw [shows_mode] at hbefore
  have hmoment (pre rest : List Event) (hevents : o.events = pre ++ rest) :
      (modeOf h (c.registers.after pre) = .error .unexpectedState ↔
        HalfEnabled h before switch pre) ∧
      (¬ HalfEnabled h before switch pre → ∃ m, modeOf h (c.registers.after pre) = .ok m) := by
    have hiff := modeOf_after_eq_error_iff (fun past e later heq =>
      ((ensures_switch h switch).run (bus refused) (n, c)).2 past e later (hevents.trans heq))
      hbefore
    exact ⟨hiff, fun hnot => exists_mode_of_ne (mt hiff.1 hnot)⟩
  -- the end is the moment after the last event
  have hend := hmoment o.events [] (List.append_nil _).symm
  rw [← registers_run refused (switch.procedure h) (n, c)] at hend
  refine ⟨fun pre rest hevents => ?_, ?_, fun hnot => ?_, fun hok => ?_⟩
  · simp only [shows_mode]
    exact hmoment pre rest hevents
  · rw [shows_mode]
    exact hend.1
  · simp only [shows_mode]
    exact hend.2 hnot
  · have hupheld := upholds_switch h switch c.registers
    rw [shows_mode]
    exact (hupheld.run (s := (n, c)) trivial).1 () hok

/-- Also with every access accepted, a bypassed filter that is enabled has no mode between the two
writes. -/
theorem without_mode_between_writes :
    let c := ((setMode .tx .bypassed).run transport initial).state
    let o := (enable .tx true).run (bus fun _ => false) (0, c)
    let pre := o.events.take 2
    { c with registers := c.registers.after pre : Chip }.shows (mode .tx) =
        .error .unexpectedState ∧
      o.state.2.shows (mode .tx) = .ok .normal := by
  intro c o pre
  obtain ⟨hmoments, -, -, hend⟩ := without_mode_iff_half_enabled .tx (.enable true) (fun _ => false)
    0 c .bypassed (by decide +kernel)
  have hpre : pre = [.read 0x34 (some 0), .write 0x34 2 true] := by decide +kernel
  have hhalf : HalfEnabled .tx .bypassed (.enable true) pre := by
    refine ⟨rfl, rfl, ⟨2, by decide +kernel⟩, ?_⟩
    rintro ⟨value, hmem⟩
    have haddress : (Lpf.bypass .tx).address = 0x35 := rfl
    simp [hpre, haddress] at hmem
  exact ⟨(hmoments pre (o.events.drop 2) (List.take_append_drop 2 _).symm).1.2 hhalf,
    hend (by decide +kernel)⟩

/-- A bypassed filter that is switched to normal operation while its second register cannot be
written is left without a mode. -/
theorem left_without_mode :
    let c := ((setMode .rx .bypassed).run transport initial).state
    let o := (setMode .rx .normal).run (bus (· == 3)) (0, c)
    c.shows (mode .rx) = .ok .bypassed ∧ o.result = .error .io ∧
      o.state.2.shows (mode .rx) = .error .unexpectedState := by
  decide +kernel

end LowPass

end Transceiver
