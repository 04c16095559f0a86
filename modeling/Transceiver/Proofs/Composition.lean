import Transceiver.Command

/-!
# Properties by composition

Some properties of procedures hold of a whole as soon as they hold of its parts: that something is
kept, or that a run depends on some registers only. For such a property it is enough to look at the
single accesses, and what a loop does besides accessing registers does not matter.
-/

namespace Transceiver

open Procedure Register

/-- What holds of all parts of a procedure holds of the whole. -/
structure Compositional (M : ∀ {α : Type}, Procedure α → Prop) : Prop where
  done {α : Type} (result : Except Fault α) : M (.done result)
  /-- The note that a loop of a calibration begins with is a part of the loop. -/
  log (entry : Note) (h : ∀ b submodule, entry ≠ .calibrating b submodule) : M (log entry)
  bind {α β : Type} {p : Procedure α} {f : α → Procedure β} : M p → (∀ a, M (f a)) → M (p >>= f)
  attempt {α : Type} {p : Procedure α} : M p → M p.attempt

namespace Compositional

variable {M : ∀ {α : Type}, Procedure α → Prop} (hM : Compositional M)

include hM

theorem map {α β : Type} {p : Procedure α} (hp : M p) (f : α → β) : M (f <$> p) := by
  rw [← bind_pure_comp]
  exact hM.bind hp fun a => hM.done _

theorem acknowledge {p : Procedure Unit} (hp : M p) : M (acknowledge p) :=
  hM.bind hp fun _ => hM.done _

/-- What holds of the steps holds of forcing them. -/
theorem forceAll {ps : List (Procedure Unit)} (h : ∀ p ∈ ps, M p) : M (forceAll ps) := by
  induction ps with
  | nil => exact hM.done _
  | cons p rest ih =>
    refine hM.bind (hM.attempt (h p List.mem_cons_self)) fun first => ?_
    refine hM.bind (hM.attempt (ih fun q hq => h q (List.mem_cons_of_mem _ hq))) fun others => ?_
    exact hM.done _

theorem forM {ι : Type} {f : ι → Procedure Unit} (h : ∀ i, M (f i)) (l : List ι) :
    M (l.forM f) := by
  induction l with
  | nil => exact hM.done _
  | cons i rest ih => exact hM.bind (h i) fun _ => ih

/-- What holds of a step on every element holds of the steps over a list. -/
theorem mapM {ι α : Type} {f : ι → Procedure α} (h : ∀ i, M (f i)) (l : List ι) :
    M (l.mapM f) := by
  induction l with
  | nil => exact hM.done _
  | cons i rest ih =>
    rw [List.mapM_cons]
    exact hM.bind (h i) fun _ => hM.bind ih fun _ => hM.done _

/-- What holds of reading a register and of writing it holds of changing it. -/
theorem modify {address : Address} (hread : M (readByte address))
    (hwrite : ∀ value, M (writeByte address value)) (change : Byte → Byte) :
    M (modify address change) :=
  hM.bind hread fun _ => hwrite _

theorem load {w : Nat} {field : BitField w} (hread : M (readByte field.address)) :
    M (load field) :=
  hM.bind hread fun _ => hM.done _

/-! ## Tuning -/

section Tuning

variable {h : Half} {cap : Byte} (hprobe : ∀ code, M (Synthesizer.probe h cap code))

include hprobe

/-- What holds of a probe holds of the search, which notes each step. -/
theorem search (budget code step : Nat) : M (Synthesizer.search h cap budget code step) := by
  induction budget generalizing code step with
  | zero => exact hM.done _
  | succ budget ih =>
    refine hM.bind (hprobe code) fun voltage => ?_
    cases voltage with
    | normal => exact hM.bind (hM.log _ nofun) fun _ => hM.done _
    | high | low => exact hM.bind (hM.log _ nofun) fun _ => ih _ _

/-- It holds of the walk to the lower end of the window. -/
theorem walkDown (code : Nat) : M (Synthesizer.walkDown h cap code) := by
  induction code with
  | zero => exact hM.done _
  | succ code ih =>
    refine hM.bind (hprobe code) fun voltage => ?_
    split
    · exact hM.done _
    · exact ih

/-- And it holds of the walk to the upper end. -/
theorem walkUp (room code : Nat) : M (Synthesizer.walkUp h cap room code) := by
  induction room generalizing code with
  | zero => exact hM.done _
  | succ room ih =>
    refine hM.bind (hprobe (code + 1)) fun voltage => ?_
    split
    · exact hM.done _
    · exact ih _

theorem upperEnd (code : Nat) : M (Synthesizer.upperEnd h cap code) := by
  refine hM.bind (hprobe code) fun voltage => ?_
  split
  · exact hM.done _
  · exact hM.walkUp hprobe _ _

end Tuning

/-- What holds of switching the clocks of the modulators and of programming a half holds of tuning
it to a frequency. -/
theorem setFrequency {h : Half} {request : Nat} (hclocks : ∀ on, M (Synthesizer.clockModulators on))
    (hprogram : M (Synthesizer.program h (clampHz request) (Divider.ofHz (clampHz request)))) :
    M (Synthesizer.setFrequency h request) := by
  have hnote : M (Synthesizer.noteClamped (clampHz request) request) := by
    unfold Synthesizer.noteClamped
    split
    · exact hM.done _
    · exact hM.log _ nofun
  refine hM.bind hnote fun _ => hM.bind (hM.log _ nofun) fun _ => ?_
  refine hM.bind (hM.attempt (hclocks true)) fun switched => ?_
  cases switched with
  | error fault => exact hM.bind (hM.log _ nofun) fun _ => hM.done _
  | ok _ =>
    refine hM.bind (hM.forceAll ?_) fun _ => hM.done _
    simpa using ⟨hprogram, hclocks false⟩

/-! ## Calibrating -/

section Calibrating

open Calibration

variable {b : Block} (hroute : ∀ submodule, M (routeStages b submodule))
  (hsettle : ∀ submodule count, M (settle b submodule count)) (hadopt : ∀ value, M (adopt b value))

include hroute hsettle hadopt

/-- What holds of routing, of the loop and of using a value holds of a submodule. -/
theorem calibrateSubmodule (submodule : Nat) : M (Calibration.calibrateSubmodule b submodule) := by
  refine hM.bind (hroute submodule) fun _ => hM.bind (hsettle submodule startCount) fun first => ?_
  cases first with
  | none => exact hM.done _
  | some first =>
    dsimp only
    split
    · -- a suspect result, the loop is run once more
      refine hM.bind (hM.log _ nofun) fun _ => hM.bind (hsettle submodule 0) fun second => ?_
      cases second with
      | none => exact hM.done _
      | some second =>
        have hsecond : M (adoptSecond b second) := by
          unfold adoptSecond
          split
          · exact hM.log _ nofun
          · exact hadopt second
        exact hM.bind hsecond fun _ => hM.done _
    · exact hM.bind (hadopt first) fun _ => hM.done _

/-- It then holds of all submodules. -/
theorem calibrateAll (submodules : List Nat) : M (Calibration.calibrateAll b submodules) := by
  induction submodules with
  | nil => exact hM.done _
  | cons submodule rest ih =>
    refine hM.bind (hM.calibrateSubmodule hroute hsettle hadopt submodule) fun finished => ?_
    split
    · exact ih
    · exact hM.done _

/-- What holds of the parts of an attempt and of setting an adjusted gain holds of all attempts. -/
theorem converge (hgain : ∀ gains a, b.adjustment? gains = some a → M (Gain.setDb a.stage a.gain))
    (gains : Gains) : M (Calibration.converge b gains) := by
  have hattempt : M (attemptBlock b) := hM.calibrateAll hroute hsettle hadopt _
  induction gains using b.adjustment_induction with
  | step gains ih =>
    cases hadjust : b.adjustment? gains with
    | none =>
      rw [converge_of_none hadjust]
      refine hM.bind hattempt fun finished => ?_
      split
      · exact hM.done _
      · exact hM.bind (hM.log _ nofun) fun _ => hM.bind (hM.log _ nofun) fun _ => hM.done _
    | some a =>
      rw [converge_of_some hadjust]
      refine hM.bind hattempt fun finished => ?_
      split
      · exact hM.done _
      · refine hM.bind (hM.log _ nofun) fun _ => hM.bind (hgain gains a hadjust) fun _ => ?_
        exact ih a hadjust

end Calibrating

/-- What holds of reading a slot holds of reading all values. -/
theorem readValues (hslot : ∀ slot, M (Calibration.readSlot slot)) : M Calibration.readValues :=
  hM.bind (hM.mapM hslot _) fun _ => hM.done _

/-- What holds of switching the clock of a block and of loading a slot holds of loading values. -/
theorem loadValues (hclock : ∀ b on, M (put (Clock.calibration b) on))
    (hslot : ∀ slot value, M (Calibration.loadSlot slot value)) (values : Calibration.Values) :
    M (Calibration.loadValues values) := by
  have hblock (b : Calibration.Block) (slots : List (Calibration.Slot × Byte)) :
      M (Calibration.loadBlock b slots) := by
    cases slots with
    | nil => exact hM.done _
    | cons first rest =>
      refine hM.bind (hclock b true) fun _ => hM.bind ?_ fun _ => hclock b false
      exact hM.forM (fun entry : Calibration.Slot × Byte => hslot entry.1 entry.2) _
  unfold Calibration.loadValues
  split
  · exact hM.forM (fun b => hblock b _) _
  · exact hM.done _

end Compositional

end Transceiver
