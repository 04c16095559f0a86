import Transceiver.Proofs.FaultReporting
import Transceiver.Proofs.NormalOperation

/-!
# The writes of a command

Every command has a short list of registers that it can write, whatever it is answered. A change of
the loopback has the longest one, since it sets up both halves. What is to be shown of all commands
about a few registers is settled by these lists for all but the commands that have one of the
registers in theirs.
-/

namespace Transceiver

open Procedure Register

/-! ## Changing the loopback -/

namespace Loopback

/-- The registers that a change of the loopback writes. -/
def changeRegisters : List Address :=
  quietRegisters ++ poweredRegisters ++ bandRegisters .rx ++ bandRegisters .tx

theorem writesOnly_change (mode : Mode) :
    (change mode).WritesOnly fun address _ => address ∈ changeRegisters := by
  have hlna : (Amplifier.selectLna .none).WritesOnly fun address _ => address ∈ changeRegisters :=
    (writesOnly_assign _ _).2 fun _ => by decide
  have hpa : (Amplifier.selectPowerAmp .none).WritesOnly
      fun address _ => address ∈ changeRegisters :=
    (writesOnly_modify _ _).2 fun _ => by decide
  have hswitches (mode : Mode) :
      (closeSwitches mode).WritesOnly fun address _ => address ∈ changeRegisters := by
    have hsource : basebandLoop ∈ changeRegisters := by decide
    have hcontrol : loopbackControl ∈ changeRegisters := by decide
    simp [closeSwitches, hsource, hcontrol]
  have hprepared {h : Half} {address : Address} (hmem : address ∈ preparedRegisters h) :
      address ∈ changeRegisters := by
    have hall : ∀ address ∈ preparedRegisters h, address ∈ changeRegisters := by
      cases h <;> decide
    exact hall address hmem
  have hrx := (writesOnly_prepareRx mode).mono fun _ _ hmem => hprepared hmem
  have htx := (writesOnly_prepareTx mode).mono fun _ _ hmem => hprepared hmem
  simp [change, hlna, hpa, hswitches, hrx, htx]

end Loopback

/-! ## Every command -/

namespace Command

/-- The registers that a command can write. -/
def writes : Command → List Address
  | .writeRaw address _ | .setBits address _ | .clearBits address _ =>
    (Address.ofNat? address.toNat).toList
  | .softReset | .powerDown | .enableRx _ | .enableTx _ => [topControl]
  | .enableFrontEnd .tx _ => [txFrontEnd]
  | .enableFrontEnd .rx _ => [rxFrontEnd]
  | .enablePll half _ | .enableDither half _ _ => [(Pll.enable half).address]
  | .enableRxvga1 _ => [rxPower]
  | .enableRxvga2 _ => [rxvga2Control]
  | .enableLna _ => [rxPower, rxFrontEnd]
  | .enableLoopbackSwitch _ => [loopbackSwitch]
  | .enablePeakDetector _ | .selectPowerAmp _ => [paControl]
  | .selectLna _ | .setGain (.lna _) => [lnaControl]
  | .setGain (.db stage _) => [stage.address]
  | .enableFilter half _ | .setFilterMode half _ =>
    [(Lpf.enable half).address, (Lpf.bypass half).address]
  | .setBandwidth half _ | .setBandwidthHz half _ => [(Lpf.bandwidth half).address]
  | .setSampling _ => [clockEnable, rxvga2Control]
  | .setFrequency half _ => clockEnable :: Synthesizer.programmed half
  | .selectBand half _ => [Synthesizer.amplifierRegister half]
  | .setLoopback _ => Loopback.changeRegisters
  | .calibrate block => lnaControl :: block.disturbed
  | .readCalibration => Calibration.Block.all.map fun b => (Dc.submodule b).address
  | .loadCalibration _ => clockEnable :: Calibration.Block.all.flatMap fun b =>
    [(Dc.submodule b).address, (Dc.count b).address]
  | .readRaw _ | .powerAmp | .lna | .filterMode _ | .bandwidth _ | .sampling | .dump | .gain _
  | .dividers _ | .frequencyHz _ | .loopback | .loopbackEngaged => []

variable {α : Type} {W : Address → Byte → Prop}

theorem writesOnly_acknowledge {p : Procedure Unit} (h : p.WritesOnly W) :
    (acknowledge p).WritesOnly W :=
  writesOnly_bind.2 ⟨h, fun _ _ => trivial⟩

/-- What is careful keeps to its bound also where its result is made a reply. -/
theorem writesOnly_reply {p : Procedure α} (h : p.Careful W fun _ => True) (f : α → Reply) :
    (f <$> p).WritesOnly W :=
  writesOnly_map.2 h.writesOnly

theorem writesOnly_switch {flag : Flag} {on : Bool} (h : ∀ value, W flag.address value) :
    (acknowledge (put flag on)).WritesOnly W :=
  writesOnly_acknowledge ((writesOnly_put flag on).2 fun _ => h _)

/-- A command writes the registers of its list only. -/
theorem writesOnly_writes (command : Command) :
    command.procedure.WritesOnly fun address _ => address ∈ command.writes := by
  cases command with
  | readRaw address =>
    simp only [procedure, register]
    split <;> simp
  | writeRaw address value | setBits address mask | clearBits address mask =>
    simp only [procedure, register, writes]
    cases Address.ofNat? address.toNat <;> simp
  -- the switches
  | softReset =>
    refine writesOnly_acknowledge ?_
    simp [Power.softReset, writes]
  | powerDown | enableRx on | enableTx on | enableRxvga1 on | enableRxvga2 on
  | enableLoopbackSwitch on | enablePeakDetector on | enablePll half on =>
    exact writesOnly_switch fun _ => List.mem_cons_self
  | enableFrontEnd half on =>
    cases half <;> exact writesOnly_switch fun _ => List.mem_cons_self
  | enableDither half bits on =>
    refine writesOnly_acknowledge ?_
    unfold Power.enableDither
    split
    · split
      · exact (writesOnly_modify _ _).2 fun _ => List.mem_cons_self
      · exact (writesOnly_put _ _).2 fun _ => List.mem_cons_self
    · trivial
  | enableLna on =>
    refine writesOnly_acknowledge (writesOnly_bind.2 ⟨?_, fun _ _ => ?_⟩)
    · exact (writesOnly_put _ _).2 fun _ => List.mem_cons_self
    · exact (writesOnly_put _ _).2 fun _ => List.mem_cons_of_mem _ List.mem_cons_self
  -- the setters
  | selectPowerAmp pa =>
    exact writesOnly_acknowledge ((writesOnly_modify _ _).2 fun _ => List.mem_cons_self)
  | selectLna lna | setBandwidth half width =>
    exact writesOnly_acknowledge ((writesOnly_assign _ _).2 fun _ => List.mem_cons_self)
  | enableFilter half on =>
    refine writesOnly_acknowledge ?_
    unfold LowPass.enable
    simp only [writesOnly_bind, writesOnly_put, writesOnly_readByte]
    refine ⟨fun _ => List.mem_cons_self, fun _ _ => ⟨trivial, fun bypass _ => ?_⟩⟩
    split
    · simp [writes]
    · trivial
  | setFilterMode half mode =>
    refine writesOnly_acknowledge ?_
    simp [LowPass.setMode, writes]
  | setBandwidthHz half hz =>
    refine writesOnly_map.2 (writesOnly_bind.2 ⟨?_, fun _ _ => trivial⟩)
    exact (writesOnly_assign _ _).2 fun _ => List.mem_cons_self
  | setSampling sampling =>
    refine writesOnly_acknowledge ?_
    have hclock : Clock.externalAdc.address ∈ writes (.setSampling sampling) := List.mem_cons_self
    have hrxvga2 : Rx.vga2Enable.address ∈ writes (.setSampling sampling) :=
      List.mem_cons_of_mem _ List.mem_cons_self
    cases sampling <;> simp [Sampling.select, Power.enableRxvga2, hclock, hrxvga2]
  | setGain request =>
    refine writesOnly_map.2 ?_
    cases request with
    | lna gain =>
      refine writesOnly_bind.2 ⟨?_, fun _ _ => trivial⟩
      cases gain with
      | unknown => trivial
      | bypass | mid | max => exact (writesOnly_assign _ _).2 fun _ => List.mem_cons_self
    | db stage request =>
      have hset : (Gain.setDb stage request).Careful (fun address _ => address ∈ [stage.address])
          fun _ => True := Gain.careful_setDb (fun _ => List.mem_cons_self) request
      exact writesOnly_map.2 hset.writesOnly
  | setFrequency half hz =>
    refine writesOnly_map.2 (Synthesizer.writesOnly_setFrequency ?_ ?_ hz)
    · exact fun address hmem _ => List.mem_cons_of_mem _ hmem
    · exact fun _ => List.mem_cons_self
  | selectBand half hz =>
    exact writesOnly_acknowledge (Synthesizer.writesOnly_selectBand fun _ => List.mem_cons_self)
  | setLoopback mode => exact writesOnly_acknowledge (Loopback.writesOnly_change mode)
  -- the calibrations
  | calibrate block =>
    refine writesOnly_acknowledge (Calibration.writesOnly_calibrate ⟨?_, ?_⟩)
    · exact fun address hmem _ => List.mem_cons_of_mem _ hmem
    · exact fun _ _ _ => List.mem_cons_self
  | readCalibration =>
    refine writesOnly_reply (Calibration.careful_readValues fun b _ => ?_) _
    cases b <;> decide
  | loadCalibration values =>
    refine writesOnly_acknowledge ?_
    by_cases hfit : values.fit
    · have hblock (b : Calibration.Block) :
          (Dc.submodule b).address ∈ writes (.loadCalibration values) ∧
            (Dc.count b).address ∈ writes (.loadCalibration values) := by
        simp only [writes]
        cases b <;> decide
      have hload : (Calibration.loadValues values).Careful
          (fun address _ => address ∈ writes (.loadCalibration values)) fun _ => True :=
        Calibration.careful_loadValues (fun b _ => (hblock b).1) (fun b _ => (hblock b).2)
          (fun _ => List.mem_cons_self) hfit
      exact hload.writesOnly
    · rw [Calibration.loadValues, if_neg hfit]
      trivial
  -- the readers
  | powerAmp => exact writesOnly_reply Amplifier.careful_powerAmp _
  | lna => exact writesOnly_reply ((careful_load _).map _) _
  | filterMode half => exact writesOnly_reply (LowPass.careful_mode half) _
  | bandwidth half => exact writesOnly_reply ((careful_load _).map _) _
  | sampling =>
    refine writesOnly_map.2 ?_
    simp [Sampling.selected]
  | dump => exact writesOnly_reply Dump.careful_take _
  | gain stage =>
    cases stage with
    | lna => exact writesOnly_reply ((Gain.careful_readLna trivial).map _) _
    | db stage => exact writesOnly_reply ((Gain.careful_readDb stage).map _) _
  | dividers half => exact writesOnly_reply (Synthesizer.careful_dividers trivial half) _
  | frequencyHz half =>
    exact writesOnly_reply (Synthesizer.careful_frequencyHz trivial (fun _ => trivial) half) _
  | loopback => exact writesOnly_reply Loopback.careful_current _
  | loopbackEngaged => exact writesOnly_reply Loopback.careful_isEngaged _

end Command

end Transceiver
