import Transceiver.Proofs.CommandWrites
import Transceiver.Proofs.Upholding

/-!
# Documented encodings

Some fields have codes that are not documented: two power amplifiers at once, an LNA gain that is
none, a band without a VCO divider, a radio frequency path that does not exist. No command but a raw
one leaves such a code behind, also where it is stopped halfway or cleans up after a failure. Every
single write sees to that: it either leaves the fields of its register that have such codes as they
are, or sets them to what decodes.

The path switches lie in two registers, and they show a mode only after both have been written. So
what they show is a matter of whole commands: nothing but a change of the loopback touches them, and
a change that is stopped leaves the old mode, none or the new one.
-/

namespace Transceiver

open Procedure Register

/-! ## Encodings -/

/-- Whether the contents of a register are documented, as far as the register has undocumented
contents at all. -/
structure Encoded (address : Address) (value : Byte) : Prop where
  powerAmp : address = paControl → (Amplifier.PowerAmp.decode? value).isSome
  lnaGain : address = lnaControl → Amplifier.LnaGain.ofBits (Rx.lnaGain.get value) ≠ .unknown
  band : ∀ h : Half, address = (Pll.freqSel h).address →
    ∃ x, vcoDivider ((Pll.freqSel h).get value) = .ok x
  path : address = loopbackControl → (Loop.rf.get value).toNat ≤ 3

/-- The registers that have undocumented contents. -/
def encodedRegisters : List Address := [
  paControl, lnaControl, (Pll.freqSel .rx).address, (Pll.freqSel .tx).address, loopbackControl]

/-- A register without undocumented contents may hold anything. -/
theorem encoded_elsewhere {address : Address} (h : address ∉ encodedRegisters) (value : Byte) :
    Encoded address value := by
  constructor
  · rintro rfl
    exact absurd (by decide) h
  · rintro rfl
    exact absurd (by decide) h
  · rintro half rfl
    exact absurd (by cases half <;> decide) h
  · rintro rfl
    exact absurd (by decide) h

/-- In the register of the power amplifier only the selection of the amplifier counts. -/
theorem encoded_paControl {value : Byte} :
    Encoded paControl value ↔ (Amplifier.PowerAmp.decode? value).isSome := by
  have hband (h : Half) : paControl ≠ (Pll.freqSel h).address := by cases h <;> decide
  constructor
  · exact fun h => h.powerAmp rfl
  · exact fun h => ⟨fun _ => h, nofun, fun half heq => absurd heq (hband half), nofun⟩

/-- In the register of the LNA only the gain mode counts: every selection of an LNA is documented.
-/
theorem encoded_lnaControl {value : Byte} :
    Encoded lnaControl value ↔ Amplifier.LnaGain.ofBits (Rx.lnaGain.get value) ≠ .unknown := by
  have hband (h : Half) : lnaControl ≠ (Pll.freqSel h).address := by cases h <;> decide
  constructor
  · exact fun h => h.lnaGain rfl
  · exact fun h => ⟨nofun, fun _ => h, fun half heq => absurd heq (hband half), nofun⟩

/-- In the register of a band only the band code counts. -/
theorem encoded_freqSel {h : Half} {value : Byte} :
    Encoded (Pll.freqSel h).address value ↔
      ∃ x, vcoDivider ((Pll.freqSel h).get value) = .ok x := by
  constructor
  · exact fun hencoded => hencoded.band h rfl
  · -- the field is laid out alike in both halves, so that it need not be told which half this is
    cases h <;> exact fun hx => ⟨nofun, nofun, fun half _ => by cases half <;> exact hx, nofun⟩

/-- In the register of the loopback only the path switch counts. -/
theorem encoded_loopbackControl {value : Byte} :
    Encoded loopbackControl value ↔ (Loop.rf.get value).toNat ≤ 3 := by
  have hband (h : Half) : loopbackControl ≠ (Pll.freqSel h).address := by cases h <;> decide
  constructor
  · exact fun h => h.path rfl
  · exact fun h => ⟨nofun, nofun, fun half heq => absurd heq (hband half), fun _ => h⟩

/-! ## Documented registers -/

/-- All registers hold documented contents. -/
def RegisterFile.Documented (r : RegisterFile) : Prop :=
  ∀ address, Encoded address (r.get address)

open RegisterFile (Documented)

/-- One documented write keeps the registers documented. -/
theorem RegisterFile.Documented.set {r : RegisterFile} (hr : r.Documented) {address : Address}
    {value : Byte} (h : Encoded address value) : (r.set address value).Documented := by
  intro other
  rw [get_set]
  split
  · next heq => exact heq ▸ h
  · exact hr other

/-- The registers are documented at power on. -/
theorem documented_initial : Documented Chip.initialRegisters := by
  intro address
  by_cases h : address ∈ encodedRegisters
  · simp only [encodedRegisters, List.mem_cons, List.not_mem_nil, or_false] at h
    rcases h with rfl | rfl | rfl | rfl | rfl
    · exact encoded_paControl.2 rfl
    · exact encoded_lnaControl.2 (by decide)
    · exact encoded_freqSel.2 ⟨4, rfl⟩
    · exact encoded_freqSel.2 ⟨4, rfl⟩
    · exact encoded_loopbackControl.2 (by decide)
  · exact encoded_elsewhere h _

namespace Procedure

variable {α : Type}

/-- What writes documented contents only keeps the registers documented at every moment. -/
theorem maintains_of_encoded {p : Procedure α} (h : p.WritesOnly Encoded) :
    p.Maintains Documented :=
  maintains_of_writesOnly h fun _ _ _ hencoded hr => hr.set hencoded

/-- So does what writes to none of these registers. -/
theorem maintains_of_elsewhere {p : Procedure α}
    (h : p.WritesOnly fun address _ => address ∉ encodedRegisters) : p.Maintains Documented :=
  maintains_of_encoded (h.mono fun _ value hout => encoded_elsewhere hout value)

/-- What a register holds is documented when it is read, so a change may rely on that. -/
theorem maintains_changed {address : Address} {change : Byte → Byte}
    (hs : (Site.at address).isStored)
    (h : ∀ old, Encoded address old → Encoded address (change old)) :
    (modify address change).Maintains Documented :=
  maintains_modify hs fun _ hr => hr.set (h _ (hr address))

theorem maintains_put_elsewhere {flag : Flag} (h : flag.address ∉ encodedRegisters) (on : Bool) :
    (put flag on).Maintains Documented :=
  maintains_of_elsewhere ((writesOnly_put flag on).2 fun _ => h)

end Procedure

/-! ## Amplifiers -/

namespace Amplifier

/-- Selecting a power amplifier writes a selection that decodes, whatever was selected before. -/
theorem maintains_selectPowerAmp (pa : PowerAmp) : (selectPowerAmp pa).Maintains Documented := by
  refine maintains_of_encoded ((writesOnly_modify _ _).2 fun old => encoded_paControl.2 ?_)
  rw [Loopback.decode?_select]
  rfl

/-- The switch of the peak detector shares its register with the power amplifier, and leaves it as
it is. -/
theorem maintains_enablePeakDetector (on : Bool) :
    (Power.enablePeakDetector on).Maintains Documented := by
  refine maintains_changed rfl fun old h => encoded_paControl.2 ?_
  rw [PowerAmp.decode?, BitField.get_put_of_disjoint (by decide),
    BitField.isSet_put_of_disjoint (by decide)]
  exact encoded_paControl.1 h

/-- The LNA is selected in the register of its gain, which stays as it is. -/
theorem maintains_selectLna (choice : Lna) : (selectLna choice).Maintains Documented := by
  refine maintains_changed rfl fun old h => encoded_lnaControl.2 ?_
  rw [BitField.get_set_of_disjoint (by decide)]
  exact encoded_lnaControl.1 h

end Amplifier

/-- A gain mode of the LNA that is a setting is shown. -/
theorem Gain.shows_readLna {c : Chip}
    (h : Amplifier.LnaGain.ofBits (c.registers.field Rx.lnaGain) ≠ .unknown) :
    c.shows readLna = .ok (.ofBits (c.registers.field Rx.lnaGain)) := by
  apply shows_of_wp
  rw [readLna_eq, wp_bind, wp_load rfl, between_ok, if_neg h]
  rfl

/-- A gain mode that is one is documented. -/
theorem Gain.encoded_lnaGain {gain : Amplifier.LnaGain} (h : gain ≠ .unknown) (old : Byte) :
    Encoded lnaControl (Rx.lnaGain.set old gain.bits) := by
  rw [encoded_lnaControl, BitField.get_set_self, Amplifier.LnaGain.ofBits_bits]
  exact h

/-- A gain mode of the LNA is written only if it is one. -/
theorem Gain.maintains_setLna (gain : Amplifier.LnaGain) : (setLna gain).Maintains Documented := by
  have hassign (known : Amplifier.LnaGain) (h : known ≠ .unknown) :
      (assign Rx.lnaGain known.bits).Maintains Documented :=
    maintains_of_encoded ((writesOnly_assign _ _).2 (encoded_lnaGain h))
  cases gain with
  | unknown => exact maintains_fail _
  | bypass => exact hassign .bypass (by decide)
  | mid => exact hassign .mid (by decide)
  | max => exact hassign .max (by decide)

/-! ## Synthesizers -/

namespace Synthesizer

/-- The band code is one that divides the VCO, whether or not the output buffer is set with it. -/
theorem encoded_writeBand (h : Half) (hz : Nat) {code : BitVec 6}
    (hcode : ∃ x, vcoDivider code = .ok x) : (writeBand h hz code).WritesOnly Encoded := by
  have hdisjoint : (Pll.freqSel h).Disjoint (Pll.selOut h) := by cases h <;> decide
  have hengaged : Loopback.isEngaged.Careful Encoded fun _ => True := Loopback.careful_isEngaged
  have hkept (old : Byte) :
      Encoded (Pll.freqSel h).address ((Pll.freqSel h).set old code) := by
    rw [encoded_freqSel, BitField.get_set_self]
    exact hcode
  have hnew : Encoded (Pll.freqSel h).address
      ((Pll.selOut h).set ((Pll.freqSel h).set 0 code) (outputBuffer hz)) := by
    rw [encoded_freqSel, BitField.get_set_of_disjoint hdisjoint, BitField.get_set_self]
    exact hcode
  unfold writeBand
  refine writesOnly_bind.2 ⟨writesOnly_readByte _, fun old _ => ?_⟩
  refine writesOnly_bind.2 ⟨hengaged.writesOnly, fun engaged _ => ?_⟩
  split
  · exact (writesOnly_writeByte _ _).2 (hkept old)
  · exact (writesOnly_writeByte _ _).2 hnew

/-- Apart from the band code, programming a PLL writes registers that may hold anything. -/
theorem encoded_program (h : Half) (hz : Nat) {d : Divider}
    (hcode : ∃ x, vcoDivider d.freqSel = .ok x) : (program h hz d).WritesOnly Encoded := by
  have hout : ∀ address ∈ (programmed h).tail, address ∉ encodedRegisters := by
    cases h <;> decide
  refine writesOnly_bind.2 ⟨encoded_writeBand h hz hcode, fun _ _ => ?_⟩
  exact writesOnly_afterBand (fun address hmem => encoded_elsewhere (hout address hmem)) d

/-- Tuning writes the band code of the request, which divides the VCO. -/
theorem maintains_setFrequency (h : Half) (request : Nat) :
    (setFrequency h request).Maintains Documented := by
  have hrepresents := Divider.ofHz_represents (clampHz request)
  have hclock : clockEnable ∉ encodedRegisters := by decide
  refine maintains_of_encoded (writesOnly_setFrequency_of_program ?_ fun value => ?_)
  · exact encoded_program h _ ⟨_, hrepresents.code⟩
  · exact encoded_elsewhere hclock value

/-- Selecting the band selects an amplifier, or does nothing while a loopback is engaged. -/
theorem maintains_selectBand (h : Half) (hz : Nat) : (selectBand h hz).Maintains Documented := by
  have hengaged : Loopback.isEngaged.Careful (fun address _ => address ∉ encodedRegisters)
      fun _ => True := Loopback.careful_isEngaged
  refine (maintains_of_elsewhere hengaged.writesOnly).bind fun engaged _ => ?_
  split
  · exact maintains_pure ()
  · cases h with
    | tx => exact Amplifier.maintains_selectPowerAmp _
    | rx => exact Amplifier.maintains_selectLna _

end Synthesizer

/-! ## The loopback -/

namespace Loopback

/-- The path switch of a mode is one of those that exist. -/
theorem rf_closePath (mode : Mode) (control : Byte) :
    Loop.rf.get (mode.closePath control) = mode.rfBits := by
  simp only [Mode.closePath]
  rw [BitField.get_put_of_disjoint (by decide), BitField.get_put_of_disjoint (by decide),
    BitField.get_put_of_disjoint (by decide), BitField.get_set_self]

/-- The path switch of every mode exists. -/
theorem maintains_closeSwitches (mode : Mode) : (closeSwitches mode).Maintains Documented := by
  have hsource (value : Byte) : Encoded basebandLoop value := encoded_elsewhere (by decide) value
  have hcontrol (old : Byte) : Encoded loopbackControl (mode.closePath old) := by
    rw [encoded_loopbackControl, rf_closePath]
    rcases mode with _ | ⟨_ | _, _ | _⟩ | ⟨_ | _ | _⟩ <;> decide
  refine maintains_of_encoded ?_
  simp [closeSwitches, hsource, hcontrol]

/-- Going back to the band of a frequency keeps the registers documented, as the tuning and the
selection in it do. -/
theorem maintains_restoreBand (h : Half) : (restoreBand h).Maintains Documented := by
  have hread : (Synthesizer.frequencyHz h).Careful (fun address _ => address ∉ encodedRegisters)
      fun _ => True := Synthesizer.careful_frequencyHz trivial (fun _ => trivial) h
  refine (maintains_of_elsewhere hread.writesOnly).bind fun hz _ => ?_
  refine (Synthesizer.maintains_setFrequency h hz).bind fun _ _ => ?_
  exact Synthesizer.maintains_selectBand h hz

/-- What powers the receive half holds no encoding. -/
theorem maintains_of_powered {α : Type} {p : Procedure α}
    (h : p.WritesOnly fun address _ => address ∈ poweredRegisters) : p.Maintains Documented := by
  have hout : ∀ address ∈ poweredRegisters, address ∉ encodedRegisters := by decide
  exact maintains_of_elsewhere (h.mono fun address _ hmem => hout address hmem)

/-- Every step that prepares the receive half for a mode keeps the registers documented. -/
theorem maintains_prepareRx (mode : Mode) : (prepareRx mode).Maintains Documented := by
  have hmode : (LowPass.mode .rx).Careful (fun address _ => address ∈ poweredRegisters)
      fun _ => True := LowPass.careful_mode .rx
  have hfilter := maintains_of_powered hmode.writesOnly
  have hlna (on : Bool) : (Power.enableLna on).Maintains Documented :=
    (maintains_put_elsewhere (by decide) _).bind fun _ _ => maintains_put_elsewhere (by decide) _
  have hrevive (found : LowPass.Mode) :=
    maintains_of_powered (writesOnly_reviveFilter found)
  have hvga1 (on : Bool) : (Power.enableRxvga1 on).Maintains Documented :=
    maintains_put_elsewhere (by decide) _
  have hvga2 (on : Bool) : (Power.enableRxvga2 on).Maintains Documented :=
    maintains_put_elsewhere (by decide) _
  have hswitch (on : Bool) : (Power.enableLoopbackSwitch on).Maintains Documented :=
    maintains_put_elsewhere (by decide) _
  match mode with
  | .none =>
    rw [prepareRx_none]
    exact (maintains_of_powered writesOnly_powerUp).bind fun _ _ => maintains_restoreBand .rx
  | .baseband _ .rxVga2 =>
    refine hfilter.bind fun filter _ => (hvga2 true).bind fun _ _ => ?_
    exact maintains_of_powered (writesOnly_setMode .disabled)
  | .baseband _ .rxLpf =>
    refine hfilter.bind fun filter _ => (hvga1 false).bind fun _ _ => ?_
    exact (hrevive filter).bind fun _ _ => hvga2 true
  | .rf path =>
    -- the output buffer shares its register with the band code
    have hbuffer : (assign (Pll.selOut .rx) path.code).Maintains Documented := by
      have hdisjoint : (Pll.freqSel .rx).Disjoint (Pll.selOut .rx) := by decide
      refine maintains_changed rfl fun old h => encoded_freqSel.2 ?_
      rw [BitField.get_set_of_disjoint hdisjoint]
      exact encoded_freqSel.1 h
    refine hfilter.bind fun filter _ => (hlna false).bind fun _ _ => ?_
    refine (hvga1 true).bind fun _ _ => (hrevive filter).bind fun _ _ => ?_
    refine (hvga2 true).bind fun _ _ => hbuffer.bind fun _ _ => ?_
    exact (Amplifier.maintains_selectLna path.lna).bind fun _ _ => hswitch true

theorem maintains_prepareTx (mode : Mode) : (prepareTx mode).Maintains Documented := by
  match mode with
  | .baseband _ _ => exact maintains_pure ()
  | .rf _ => exact Amplifier.maintains_selectPowerAmp .aux
  | .none => exact maintains_restoreBand .tx

/-- So does a change of the loopback as a whole, wherever it is stopped. -/
theorem maintains_change (mode : Mode) : (change mode).Maintains Documented := by
  refine (maintains_log _).bind fun _ _ => ?_
  refine (Amplifier.maintains_selectPowerAmp .none).bind fun _ _ => ?_
  refine (Amplifier.maintains_selectLna .none).bind fun _ _ => ?_
  refine (maintains_closeSwitches .none).bind fun _ _ => ?_
  refine (maintains_prepareRx mode).bind fun _ _ => ?_
  refine (maintains_prepareTx mode).bind fun _ _ => ?_
  exact maintains_closeSwitches mode

end Loopback

/-! ## Every command -/

namespace Command

/-- A command whose list of registers has none with an encoding keeps the registers documented. -/
theorem maintains_of_writes {command : Command}
    (h : ∀ address ∈ command.writes, address ∉ encodedRegisters) :
    command.procedure.Maintains Documented :=
  maintains_of_elsewhere (command.writesOnly_writes.mono fun address _ hmem => h address hmem)

/-- No command but a raw one takes the registers away from documented contents, at any moment. -/
theorem maintains_documented (command : Command) (h : command.isRaw = false) :
    command.procedure.Maintains Documented := by
  cases command with
  | writeRaw _ _ | setBits _ _ | clearBits _ _ => cases h
  -- the commands that write registers with encodings
  | enablePeakDetector on => exact (Amplifier.maintains_enablePeakDetector on).acknowledge
  | selectPowerAmp pa => exact (Amplifier.maintains_selectPowerAmp pa).acknowledge
  | selectLna choice => exact (Amplifier.maintains_selectLna choice).acknowledge
  | setFrequency half hz => exact (Synthesizer.maintains_setFrequency half hz).map _
  | selectBand half hz => exact (Synthesizer.maintains_selectBand half hz).acknowledge
  | setLoopback mode => exact (Loopback.maintains_change mode).acknowledge
  | setGain request =>
    cases request with
    | lna gain =>
      exact ((Gain.maintains_setLna gain).bind fun _ _ => maintains_pure _).map _
    | db stage request =>
      refine maintains_of_writes ?_
      cases stage <;> dsimp only [writes] <;> decide
  | calibrate block =>
    have hout : ∀ address ∈ block.disturbed, address ∉ encodedRegisters := by
      cases block <;> decide
    refine (maintains_of_encoded (Calibration.writesOnly_calibrate ⟨?_, ?_⟩)).acknowledge
    · exact fun address hmem => encoded_elsewhere (hout address hmem)
    · exact fun gain hgain => Gain.encoded_lnaGain hgain
  -- the others have none of these registers in their lists
  | enableFrontEnd half on | enablePll half on | enableDither half _ on | enableFilter half on
  | setFilterMode half mode | setBandwidth half width | setBandwidthHz half hz =>
    refine maintains_of_writes ?_
    cases half <;> dsimp only [writes] <;> decide
  | _ =>
    refine maintains_of_writes ?_
    dsimp only [writes]
    decide

end Command

/-! ## The path switches -/

namespace Loopback

variable (refused : Nat → Bool)

/-- Closing the paths of a mode behind open switches shows that mode or still none. -/
theorem shown_close (mode : Mode) {s : Nat × Chip} (hopen : AllOpen s.2.registers) :
    let after := ((closeSwitches mode).run (Chip.bus refused) s).state.2.registers
    shown after = .none ∨ shown after = mode := by
  intro after
  have hne : basebandLoop ≠ loopbackControl := by decide
  rcases registers_closeSwitches refused mode s with ⟨-, hregs | hregs⟩ | ⟨-, hregs⟩
  · exact .inl ((congrArg shown hregs).trans hopen.shown)
  · -- only the source has been connected
    simp only [after, hregs, shown, RegisterFile.get_set_of_ne _ hne]
    exact .inl (decode_of_open (hopen loopbackControl) _)
  · simp only [after, hregs, shown, RegisterFile.get_set_self,
      RegisterFile.get_set_of_ne _ hne.symm]
    exact .inr (Mode.decode_close mode _ _)

/-- However a change ends, the path switches show the old mode, none or the new one. -/
theorem shown_change (mode : Mode) (s : Nat × Chip) :
    let after := ((change mode).run (Chip.bus refused) s).state.2.registers
    shown after = shown s.2.registers ∨ shown after = .none ∨ shown after = mode := by
  intro after
  obtain ⟨hopen, hshown⟩ := shown_prepare refused mode s
  simp only [after, change_eq]
  cases hr : ((prepare mode).run (Chip.bus refused) s).result with
  | error fault =>
    rw [run_bind_of_error _ _ hr]
    exact hshown.imp_right .inl
  | ok u =>
    rw [run_bind_of_ok _ _ hr]
    exact .inr (shown_close refused mode (hopen u hr))

end Loopback

/-- No other command but a raw one writes a register with path switches. -/
theorem Command.writesOnly_sparesPath {command : Command} (htame : command.isRaw = false)
    (h : ∀ mode, command ≠ .setLoopback mode) :
    command.procedure.WritesOnly Loopback.SparesPath := by
  refine command.writesOnly_writes.mono fun address _ hmem => ?_
  suffices hall : ∀ address ∈ command.writes,
      address ≠ loopbackControl ∧ address ≠ basebandLoop from hall address hmem
  cases command with
  | writeRaw _ _ | setBits _ _ | clearBits _ _ => cases htame
  | setLoopback mode => exact (h mode rfl).elim
  | setGain request =>
    rcases request with _ | ⟨_ | _⟩ <;> dsimp only [writes] <;> decide
  | calibrate block => cases block <;> dsimp only [writes] <;> decide
  | enableFrontEnd half on | enablePll half on | enableDither half _ on | enableFilter half on
  | setFilterMode half mode | setBandwidth half width | setBandwidthHz half hz
  | setFrequency half hz | selectBand half hz => cases half <;> dsimp only [writes] <;> decide
  | _ =>
    dsimp only [writes]
    decide

namespace Chip

variable {commands : List Command} {c : Chip}

/-- What a reached chip shows is no loopback, or one that it has been asked for. -/
theorem Reached.shown (h : c.Reached commands) :
    Loopback.shown c.registers = .none ∨
      .setLoopback (Loopback.shown c.registers) ∈ commands := by
  induction h with
  | powerOn registers =>
    rw [registers]
    exact .inl rfl
  | @command commands before c command reached registers tame refused n ih =>
    rw [← registers] at ih
    by_cases hchange : ∃ mode, command = .setLoopback mode
    · obtain ⟨mode, rfl⟩ := hchange
      rw [Command.procedure, state_acknowledge]
      rcases Loopback.shown_change refused mode (n, c) with hold | hnone | hnew
      · rw [hold]
        exact ih.imp_right (List.mem_append_left _)
      · exact .inl hnone
      · rw [hnew]
        exact .inr (List.mem_append_right _ List.mem_cons_self)
    · have hspares := Command.writesOnly_sparesPath tame fun mode heq => hchange ⟨mode, heq⟩
      rw [Loopback.shown_run refused hspares]
      exact ih.imp_right (List.mem_append_left _)

/-- At every moment of a command that starts from documented registers, they are documented. -/
theorem documented_throughout {command : Command} (htame : command.isRaw = false)
    (refused : Nat → Bool) {s : Nat × Chip} (hs : s.2.registers.Documented)
    (pre rest : List Event) (hpre : (command.procedure.run (bus refused) s).events = pre ++ rest) :
    (s.2.registers.after pre).Documented :=
  ((command.maintains_documented htame _ hs).run hs).2 pre rest hpre

/-- No command but a raw one can produce an undocumented encoding. On a chip that has been given
any others since power on, whatever accesses of theirs have been refused, the power amplifier, the
gain of the LNA and the settings of both synthesizers can be read, the radio frequency path switch
is open or on one of the three paths, and the loopback is none or one that has been asked for. -/
theorem encodings_documented (h : c.Reached commands) :
    (∃ pa, c.shows Amplifier.powerAmp = .ok pa) ∧
    (∃ gain, c.shows Gain.readLna = .ok gain) ∧
    (∀ half, ∃ d, c.shows (Synthesizer.dividers half) = .ok d) ∧
    (c.registers.field Loop.rf).toNat ≤ 3 ∧
    ∃ mode, c.shows Loopback.current = .ok mode ∧
      (mode = .none ∨ .setLoopback mode ∈ commands) := by
  have hdocumented : c.registers.Documented :=
    h.invariant documented_initial Command.maintains_documented
  refine ⟨?_, ?_, fun half => ?_, ?_, ?_⟩
  · obtain ⟨pa, hpa⟩ := Option.isSome_iff_exists.1 (encoded_paControl.1 (hdocumented _))
    refine ⟨pa, shows_of_wp ((Amplifier.wp_powerAmp _).2 ?_)⟩
    rw [Amplifier.powerAmpOf, hpa]
  · have hgain : Amplifier.LnaGain.ofBits (c.registers.field Rx.lnaGain) ≠ .unknown :=
      encoded_lnaControl.1 (hdocumented _)
    exact ⟨_, Gain.shows_readLna hgain⟩
  · obtain ⟨x, hx⟩ := encoded_freqSel.1 (hdocumented (Pll.freqSel half).address)
    have hshows : c.shows (Synthesizer.dividers half) = Synthesizer.dividersOf half c.registers :=
      shows_of_wp ((Synthesizer.wp_dividers half _).2 rfl)
    rw [hshows, Synthesizer.dividersOf, Synthesizer.decode, hx]
    exact ⟨_, rfl⟩
  · exact encoded_loopbackControl.1 (hdocumented _)
  · exact ⟨_, Loopback.shows_current c, h.shown⟩

/-- A bus that goes dead in the middle of a calibration leaves the LNA at the gain it is calibrated
at, which is not the one it had but can be read all the same. -/
theorem encodings_documented_dead_bus :
    let before := (Command.setGain (.lna .bypass)).procedure.run (bus fun _ => false) (0, initial)
    let cut := (Command.calibrate .rxLpf).procedure.run (bus (13 ≤ ·)) (0, before.state.2)
    let c := cut.state.2
    cut.result.isOk = false ∧ c.Reached [.setGain (.lna .bypass), .calibrate .rxLpf] ∧
      c.shows Gain.readLna = .ok .max ∧ (∃ pa, c.shows Amplifier.powerAmp = .ok pa) ∧
      c.shows Loopback.current = .ok .none := by
  intro before cut c
  have hbefore : Reached [.setGain (.lna .bypass)] before.state.2 :=
    .command (.powerOn rfl) rfl rfl _ 0
  have hreached : c.Reached [.setGain (.lna .bypass), .calibrate .rxLpf] :=
    .command hbefore rfl rfl _ 0
  have hgain : Amplifier.LnaGain.ofBits (c.registers.field Rx.lnaGain) = .max := by
    decide +kernel
  obtain ⟨hpa, -, -, -, mode, hmode, hasked⟩ := encodings_documented hreached
  have hnone : mode = .none := by simpa using hasked
  refine ⟨by decide +kernel, hreached, ?_, hpa, hnone ▸ hmode⟩
  rw [Gain.shows_readLna (by simp [hgain]), hgain]

end Chip

end Transceiver
