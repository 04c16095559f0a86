import Transceiver.Proofs.Bus
import Transceiver.Proofs.Careful

/-!
# Path switches

The path switches of the loopback lie in two registers, and a change of mode writes these twice
only: when it opens all switches, and when it closes those of the new mode at the end. What sets up
the halves in between, nested tunings included, has a list of registers that it writes, and neither
of the two is on it.

Switching the paths reads both registers before it writes the first one. So it has three outcomes:
nothing is written, only the source register is written, or both are.
-/

namespace Transceiver

open Procedure Register

/-- After the band code, programming a PLL writes the other registers of its half. -/
theorem Synthesizer.writesOnly_afterBand {W : Address → Byte → Prop} {h : Half}
    (hW : ∀ address ∈ (programmed h).tail, ∀ value, W address value) (d : Divider) :
    (do writeDividers h d.nint d.nfrac; setCurrents h; tune h).WritesOnly W := by
  have htune : (tune h).Careful W fun _ => True := careful_tune (hW _ (by simp [programmed]))
  simp only [programmed, List.tail_cons, List.forall_mem_cons] at hW
  simp only [writeDividers, setCurrents, writesOnly_bind, writesOnly_writeByte, writesOnly_assign,
    implies_true, and_true, hW, htune.writesOnly]

/-- Tuning a half writes what programming its PLL writes, and the clocks of the modulators. -/
theorem Synthesizer.writesOnly_setFrequency_of_program {W : Address → Byte → Prop} {h : Half}
    {request : Nat}
    (hprogram : (program h (clampHz request) (Divider.ofHz (clampHz request))).WritesOnly W)
    (hclock : ∀ value, W clockEnable value) : (setFrequency h request).WritesOnly W := by
  have hclocks (on : Bool) : (clockModulators on).Careful W fun _ => False :=
    careful_clockModulators hclock on
  have hsteps : ∀ p ∈ [program h (clampHz request) (Divider.ofHz (clampHz request)),
      clockModulators false], p.WritesOnly W := by
    simpa using ⟨hprogram, (hclocks false).writesOnly⟩
  have hnote (hz : Nat) : (noteClamped hz request).Careful W fun _ => False :=
    careful_noteClamped hz request
  have hon : ((clockModulators true).noting .modulatorsFailed).WritesOnly W :=
    ((hclocks true).noting rfl).writesOnly
  rw [setFrequency_eq]
  simp [(hnote _).writesOnly, hon, WritesOnly.forceAll hsteps]

/-- Tuning a half writes the registers of its PLL and the clocks of the modulators. -/
theorem Synthesizer.writesOnly_setFrequency {W : Address → Byte → Prop} {h : Half}
    (hprogrammed : ∀ address ∈ programmed h, ∀ value, W address value)
    (hclock : ∀ value, W clockEnable value) (request : Nat) :
    (setFrequency h request).WritesOnly W := by
  have hprogram (hz : Nat) (d : Divider) : (program h hz d).Careful W fun _ => False :=
    careful_program hprogrammed hz d
  exact writesOnly_setFrequency_of_program (hprogram _ _).writesOnly hclock

/-- The register that selects the amplifier of a half. -/
def Synthesizer.amplifierRegister : Half → Address
  | .tx => paControl
  | .rx => lnaControl

/-- Selecting the amplifier of a half writes one register at most. -/
theorem Synthesizer.writesOnly_selectBand {W : Address → Byte → Prop} {h : Half} {hz : Nat}
    (hW : ∀ value, W (amplifierRegister h) value) : (selectBand h hz).WritesOnly W := by
  have hengaged : Loopback.isEngaged.Careful W fun _ => True := Loopback.careful_isEngaged
  refine writesOnly_bind.2 ⟨hengaged.writesOnly, fun engaged _ => ?_⟩
  split
  · trivial
  · cases h with
    | tx => exact (writesOnly_modify _ _).2 fun _ => hW _
    | rx => exact (writesOnly_assign _ _).2 fun _ => hW _

namespace Loopback

/-! ## What setting up the halves writes -/

/-- The registers that show whether the receive half is powered up. -/
def poweredRegisters : List Address := [
  loopbackSwitch, rxPower, rxFrontEnd, rxvga2Control, (Lpf.enable .rx).address,
  (Lpf.bypass .rx).address]

theorem writesOnly_setMode (mode : LowPass.Mode) :
    (LowPass.setMode .rx mode).WritesOnly fun address _ => address ∈ poweredRegisters := by
  simp [LowPass.setMode, poweredRegisters]

theorem writesOnly_reviveFilter (found : LowPass.Mode) :
    (reviveFilter found).WritesOnly fun address _ => address ∈ poweredRegisters := by
  unfold reviveFilter
  split
  · exact writesOnly_setMode .normal
  · trivial

theorem writesOnly_put_powered {flag : Flag} (hflag : flag.address ∈ poweredRegisters) (on : Bool) :
    (put flag on).WritesOnly fun address _ => address ∈ poweredRegisters :=
  (writesOnly_put _ _).2 fun _ => hflag

/-- The registers that restoring the band of a half writes. -/
def bandRegisters (h : Half) : List Address :=
  Synthesizer.amplifierRegister h :: clockEnable :: Synthesizer.programmed h

theorem writesOnly_restoreBand (h : Half) :
    (restoreBand h).WritesOnly fun address _ => address ∈ bandRegisters h := by
  have hread : (Synthesizer.frequencyHz h).Careful (fun address _ => address ∈ bandRegisters h)
      fun _ => True := Synthesizer.careful_frequencyHz trivial (fun _ => trivial) h
  have htune (hz : Nat) :
      (Synthesizer.setFrequency h hz).WritesOnly fun address _ => address ∈ bandRegisters h :=
    Synthesizer.writesOnly_setFrequency (fun address ha _ => by simp [bandRegisters, ha])
      (fun _ => by simp [bandRegisters]) hz
  have hselect (hz : Nat) :
      (Synthesizer.selectBand h hz).WritesOnly fun address _ => address ∈ bandRegisters h :=
    Synthesizer.writesOnly_selectBand fun _ => List.mem_cons_self
  simp [restoreBand, hread.writesOnly, htune, hselect]

/-- The registers that setting up a half for a mode writes. -/
def preparedRegisters : Half → List Address
  | .rx => poweredRegisters ++ bandRegisters .rx
  | .tx => bandRegisters .tx

theorem writesOnly_prepareRx (mode : Mode) :
    (prepareRx mode).WritesOnly fun address _ => address ∈ preparedRegisters .rx := by
  have hpowered {p : Procedure Unit}
      (h : p.WritesOnly fun address _ => address ∈ poweredRegisters) :
      p.WritesOnly fun address _ => address ∈ preparedRegisters .rx :=
    h.mono fun _ _ hmem => List.mem_append_left _ hmem
  have hput {flag : Flag} (h : flag.address ∈ poweredRegisters) (on : Bool) :=
    hpowered (writesOnly_put_powered h on)
  have hvga1 (on : Bool) := hput (show Rx.vga1Off.address ∈ _ by decide) on
  have hvga2 (on : Bool) := hput (show Rx.vga2Enable.address ∈ _ by decide) on
  have hswitch (on : Bool) := hput (show Loop.switch.address ∈ _ by decide) on
  have hoff (on : Bool) := hput (show Rx.lnaOff.address ∈ _ by decide) on
  have hdecode (on : Bool) := hput (show Rx.lnaDecodeOff.address ∈ _ by decide) on
  have hmode : (LowPass.mode .rx).Careful (fun address _ => address ∈ preparedRegisters .rx)
      fun _ => True := LowPass.careful_mode .rx
  have hfilter (mode : LowPass.Mode) := hpowered (writesOnly_setMode mode)
  have hrevive (found : LowPass.Mode) := hpowered (writesOnly_reviveFilter found)
  have hbuffer (path : RfPath) : (assign (Pll.selOut .rx) path.code).WritesOnly
      fun address _ => address ∈ preparedRegisters .rx :=
    (writesOnly_assign _ _).2 fun _ => by decide
  have hlna (lna : Amplifier.Lna) : (Amplifier.selectLna lna).WritesOnly
      fun address _ => address ∈ preparedRegisters .rx :=
    (writesOnly_assign _ _).2 fun _ => by decide
  have hrestore : (restoreBand .rx).WritesOnly fun address _ => address ∈ preparedRegisters .rx :=
    (writesOnly_restoreBand .rx).mono fun _ _ hmem => List.mem_append_right _ hmem
  rcases mode with _ | ⟨_, _ | _⟩ | path <;>
    simp [prepareRx, Power.enableRxvga1, Power.enableRxvga2, Power.enableLna,
      Power.enableLoopbackSwitch, hvga1, hvga2, hswitch, hoff, hdecode, hmode.writesOnly, hfilter,
      hrevive, hbuffer, hlna, hrestore]

theorem writesOnly_prepareTx (mode : Mode) :
    (prepareTx mode).WritesOnly fun address _ => address ∈ preparedRegisters .tx := by
  match mode with
  | .baseband _ _ => trivial
  | .rf _ => exact (writesOnly_modify _ _).2 fun _ => List.mem_cons_self
  | .none => exact writesOnly_restoreBand .tx

/-! ## The halves are set up behind open switches -/

/-- A write that leaves both registers with path switches alone. -/
def SparesPath (address : Address) (_ : Byte) : Prop :=
  address ≠ loopbackControl ∧ address ≠ basebandLoop

theorem sparesPath_of_ne {address : Address} (h : address ≠ 0x08 ∧ address ≠ 0x46) (value : Byte) :
    SparesPath address value :=
  h

/-- Setting up a half leaves the path switches alone. -/
theorem sparesPath_of_prepared {h : Half} {address : Address} (hmem : address ∈ preparedRegisters h)
    (value : Byte) : SparesPath address value := by
  have hspared : ∀ address ∈ preparedRegisters h, address ≠ 0x08 ∧ address ≠ 0x46 := by
    cases h <;> decide
  exact sparesPath_of_ne (hspared address hmem) value

theorem writesOnly_setFrequency (h : Half) (request : Nat) :
    (Synthesizer.setFrequency h request).WritesOnly SparesPath := by
  have hspared : ∀ address ∈ Synthesizer.programmed h, address ≠ 0x08 ∧ address ≠ 0x46 := by
    cases h <;> decide
  exact Synthesizer.writesOnly_setFrequency
    (fun address hmem => sparesPath_of_ne (hspared address hmem)) (sparesPath_of_ne (by decide))
    request

/-! ## Switching the paths -/

variable (refused : Nat → Bool)

open Chip

/-- The ways in which switching the paths can go, from what the two registers hold. -/
inductive Switched (mode : Mode) (source control : Byte) (o : Outcome (Nat × Chip) Unit) :
    Prop where
  | untouched (result : o.result = .error .io) (writes : ∀ a v, .write a v true ∉ o.events)
  | source (reads : List Event) (result : o.result = .error .io)
    (writes : ∀ e ∈ reads, e.isWrite = false)
    (events : o.events = reads ++ [.write basebandLoop (mode.closeSource source) true,
      .write loopbackControl (mode.closePath control) false])
  | both (reads : List Event) (result : o.result = .ok ())
    (writes : ∀ e ∈ reads, e.isWrite = false)
    (events : o.events = reads ++ [.write basebandLoop (mode.closeSource source) true,
      .write loopbackControl (mode.closePath control) true])

theorem switched_closeSwitches (mode : Mode) (s : Nat × Chip) :
    Switched mode (s.2.registers.get basebandLoop) (s.2.registers.get loopbackControl)
      ((closeSwitches mode).run (bus refused) s) := by
  unfold closeSwitches
  have hsource : (Site.at basebandLoop).isStored := rfl
  have hcontrol : (Site.at loopbackControl).isStored := rfl
  -- both registers are read first; as long as nothing is written, nothing has been switched
  rcases run_readByte_stored refused hsource s with hs | hs
  · rw [run_bind, hs]
    exact .untouched rfl (by simp)
  rw [run_bind_of_ok _ _ (by rw [hs]), hs]
  rcases run_readByte_stored refused hcontrol (s.1 + 1, s.2) with hc | hc
  · simp only [run_bind, hc]
    exact .untouched rfl (by simp)
  -- then the source is written, and the paths only if that went through
  rw [run_bind_of_ok _ _ (by rw [hc]), hc, run_bind, run_writeByte]
  dsimp only
  generalize (bus refused).write basebandLoop _ _ = first
  rcases first with ⟨_ | _, s'⟩
  · exact .untouched rfl (by simp)
  simp only [run_writeByte]
  generalize (bus refused).write loopbackControl _ _ = second
  let reads : List Event := [.read basebandLoop (some (s.2.registers.get basebandLoop)),
    .read loopbackControl (some (s.2.registers.get loopbackControl))]
  rcases second with ⟨_ | _, s''⟩
  · exact .source reads rfl (by simp [reads, Event.isWrite]) rfl
  · exact .both reads rfl (by simp [reads, Event.isWrite]) rfl

/-- An accepted write of a switching is the first or the second of two. -/
theorem write_closeSwitches {mode : Mode} {s : Nat × Chip} {pre post : List Event} {a : Address}
    {v : Byte}
    (h : ((closeSwitches mode).run (bus refused) s).events = pre ++ .write a v true :: post) :
    (a = basebandLoop ∧ v = mode.closeSource (s.2.registers.get basebandLoop) ∧
      ∃ v' accepted, post = [.write loopbackControl v' accepted]) ∨
    (a = loopbackControl ∧ v = mode.closePath (s.2.registers.get loopbackControl) ∧ post = []) := by
  have hwrite : (Event.write a v true).isWrite := rfl
  cases switched_closeSwitches refused mode s with
  | untouched result writes => exact (writes a v (by simp [h])).elim
  | source reads result writes events =>
    obtain ⟨mid, -, hmid⟩ := Event.in_right (events.symm.trans h) writes hwrite
    rcases mid with _ | ⟨x, _ | ⟨y, mid⟩⟩
    · obtain ⟨hfirst, rfl⟩ := List.cons.inj hmid
      obtain ⟨rfl, rfl, -⟩ := Event.write.inj hfirst
      exact .inl ⟨rfl, rfl, _, _, rfl⟩
    · simp at hmid
    · simp at hmid
  | both reads result writes events =>
    obtain ⟨mid, -, hmid⟩ := Event.in_right (events.symm.trans h) writes hwrite
    rcases mid with _ | ⟨x, _ | ⟨y, mid⟩⟩
    · obtain ⟨hfirst, rfl⟩ := List.cons.inj hmid
      obtain ⟨rfl, rfl, -⟩ := Event.write.inj hfirst
      exact .inl ⟨rfl, rfl, _, _, rfl⟩
    · obtain ⟨hsecond, rfl⟩ := List.cons.inj (List.cons.inj hmid).2
      obtain ⟨rfl, rfl, -⟩ := Event.write.inj hsecond
      exact .inr ⟨rfl, rfl, rfl⟩
    · simp at hmid

theorem address_of_write_closeSwitches {mode : Mode} {s : Nat × Chip} {pre post : List Event}
    {a : Address} {v : Byte}
    (h : ((closeSwitches mode).run (bus refused) s).events = pre ++ .write a v true :: post) :
    a = basebandLoop ∨ a = loopbackControl := by
  rcases write_closeSwitches refused h with ⟨ha, -⟩ | ⟨ha, -⟩
  · exact .inl ha
  · exact .inr ha

end Loopback

end Transceiver
