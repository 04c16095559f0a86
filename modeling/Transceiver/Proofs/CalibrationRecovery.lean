import Mathlib.Algebra.GroupWithZero.Nat
import Transceiver.Proofs.CalibrationClocks
import Transceiver.Proofs.DocumentedEncodings
import Transceiver.Proofs.Replays
import Transceiver.Proofs.StartStrobe

/-!
# Calibrating after a refused access

Whatever has been refused before, a calibration from which nothing is refused runs at least one
loop. If its block has no start strobe left up, it starts the engine once in each loop, right after
the loop has latched its count; a load strobe left up does no harm. If the block has a start strobe
left up, the first loop carries it along, and the byte that addresses the submodule and the two that
put and drop the load strobe start the engine as well: four starts in the first loop, the first of
them before the count is written, and one in each loop after it.
-/

namespace Transceiver

open Procedure Register Chip

/-! ## Starts and loops -/

namespace Event

/-- Whether the event starts an engine. -/
def isStart : Event → Bool
  | .write address value true =>
    match Site.at address with
    | .control b => (Dc.start b).isSet value
    | .memory | .voltage _ | .value _ | .status _ => false
  | .write _ _ false | .read _ _ | .note _ | .pause _ => false

/-- Whether the event notes that a submodule is calibrated, as every loop does at its beginning. -/
def isLoop : Event → Bool
  | .note (.calibrating _ _) => true
  | _ => false

/-- A write to the control register is a start if it has the strobe put. -/
@[simp] theorem isStart_control (b : Calibration.Block) (value : Byte) :
    (Event.write (Dc.submodule b).address value true).isStart = (Dc.start b).isSet value := by
  simp [isStart]

/-- A write to the count register is none. -/
@[simp] theorem isStart_count (b : Calibration.Block) (value : Byte) (accepted : Bool) :
    (Event.write (Dc.count b).address value accepted).isStart = false := by
  cases accepted <;> simp [isStart]

/-- Nothing beside the launches is a start. -/
theorem Beside.isStart {e : Event} (h : e.Beside) : e.isStart = false := by
  cases e with
  | write address value accepted =>
    have hmemory : Site.at address = .memory := h
    cases accepted <;> simp [Event.isStart, hmemory]
  | read _ _ | note _ | pause _ => rfl

/-- And nothing beside them begins a loop. -/
theorem Beside.isLoop {e : Event} (h : e.Beside) : e.isLoop = false := by
  cases e with
  | note entry =>
    cases entry with
    | calibrating block submodule => exact h.elim
    | _ => rfl
  | read _ _ | write _ _ _ | pause _ => rfl

/-- The starts in each loop, the latest first, with an event counted. -/
def countStart (counts : List Nat) (e : Event) : List Nat :=
  if e.isLoop then 0 :: counts else if e.isStart then counts.modifyHead (· + 1) else counts

theorem isStart_of_isLoop {e : Event} (h : e.isLoop) : e.isStart = false := by
  cases e with
  | note entry => rfl
  | read _ _ | write _ _ _ | pause _ => cases h

end Event

namespace Calibration

/-- How many starts there are among some events. -/
def startsIn (events : List Event) : Nat :=
  events.countP Event.isStart

/-- How many loops have begun among some events. -/
def loopsIn (events : List Event) : Nat :=
  events.countP Event.isLoop

@[simp] theorem startsIn_append (left right : List Event) :
    startsIn (left ++ right) = startsIn left + startsIn right :=
  List.countP_append

@[simp] theorem loopsIn_append (left right : List Event) :
    loopsIn (left ++ right) = loopsIn left + loopsIn right :=
  List.countP_append

/-- The starts in each loop among some events, the latest first and those before all loops last. -/
def startsPerLoop (events : List Event) : List Nat :=
  events.foldl Event.countStart [0]

/-- Every start is counted in one of the loops or before them all. -/
theorem sum_foldl_countStart {counts : List Nat} (h : counts ≠ []) (events : List Event) :
    (events.foldl Event.countStart counts).sum = counts.sum + startsIn events := by
  induction events generalizing counts with
  | nil => rfl
  | cons e rest ih =>
    obtain ⟨current, earlier, rfl⟩ := List.exists_cons_of_ne_nil h
    have hfirst : startsIn (e :: rest) = (if e.isStart then 1 else 0) + startsIn rest := by
      rw [startsIn, List.countP_cons, Nat.add_comm]
      rfl
    rw [List.foldl_cons, hfirst, Event.countStart]
    by_cases hloop : e.isLoop
    · rw [if_pos hloop, ih (List.cons_ne_nil _ _), Event.isStart_of_isLoop hloop]
      simp
    · rw [if_neg hloop]
      split
      · rw [List.modifyHead_cons, ih (List.cons_ne_nil _ _), List.sum_cons, List.sum_cons]
        omega
      · rw [ih (List.cons_ne_nil _ _), Nat.zero_add]

/-- The starts of all loops together are the starts. -/
theorem sum_startsPerLoop (events : List Event) : (startsPerLoop events).sum = startsIn events := by
  rw [startsPerLoop, sum_foldl_countStart (List.cons_ne_nil _ _)]
  exact Nat.zero_add _

/-- Events beside the launches leave the count of every loop as it is. -/
theorem startsPerLoop_of_beside (past : List Event) {new : List Event}
    (h : ∀ e ∈ new, e.Beside) : startsPerLoop (past ++ new) = startsPerLoop past := by
  rw [startsPerLoop, List.foldl_append, ← startsPerLoop]
  generalize startsPerLoop past = counts
  induction new with
  | nil => rfl
  | cons e rest ih =>
    obtain ⟨he, hrest⟩ := List.forall_mem_cons.1 h
    have hnone : Event.countStart counts e = counts := by
      simp [Event.countStart, he.isLoop, he.isStart]
    rw [List.foldl_cons, hnone, ih hrest]

theorem loopsIn_of_beside {events : List Event} (h : ∀ e ∈ events, e.Beside) :
    loopsIn events = 0 :=
  List.countP_eq_zero.2 fun e he => by simp [(h e he).isLoop]

end Calibration

namespace Chip

open Calibration

variable {c : Chip} {b : Block}

/-- No read starts the engine. -/
theorem starts_read (address : Address) (c : Chip) : (c.read address).2.starts = c.starts := by
  unfold read
  split
  · rfl
  · cases Site.at address with
    | voltage half =>
      show (c.readVoltage half).2.starts = c.starts
      unfold readVoltage
      split
      · rfl
      · split <;> rfl
    | memory | value block | status block | control block => rfl

/-- The chip counts the starts that the events show. -/
theorem starts_write (address : Address) (value : Byte) (c : Chip) :
    (c.write address value).2.starts =
      c.starts + startsIn [.write address value (c.write address value).1] := by
  unfold write
  split
  · rfl
  · cases hs : Site.at address with
    | control block =>
      simp only [strobe, startsIn, List.countP_singleton, Event.isStart, hs]
      split <;> split <;> rfl
    | memory | voltage half | value block | status block =>
      simp [startsIn, Event.isStart, hs]

/-- The chip counts the starts among the events of a run. -/
theorem starts_run {α : Type} (p : Procedure α) (c : Chip) :
    (p.run transport c).state.starts = c.starts + startsIn (p.run transport c).events := by
  induction p generalizing c with
  | done result => rfl
  | read address next ih =>
    have hnext := ih (c.read address).1 (c.read address).2
    rw [starts_read] at hnext
    exact hnext
  | write address value next ih =>
    have hnext := ih (c.write address value).1 (c.write address value).2
    rw [starts_write, Nat.add_assoc, ← startsIn_append] at hnext
    exact hnext
  | note entry next ih | pause microseconds next ih => exact ih c

end Chip

/-! ## The launch -/

namespace Calibration

/-- The byte for the control register that a loop starts from when it has read another. -/
def controlFor (b : Block) (submodule : Nat) (old : Byte) : Byte :=
  (Dc.submodule b).set old (BitVec.ofNat 3 submodule)

/-- That byte once the load strobe has been put and dropped. -/
def releasedFor (b : Block) (submodule : Nat) (old : Byte) : Byte :=
  (Dc.load b).put ((Dc.load b).put (controlFor b submodule old) true) false

/-- The events of a loop up to its start: its note, what it has read, the submodule addressed, the
count, and the load strobe put and dropped. -/
def approach (b : Block) (submodule : Nat) (count : BitVec 6) (old : Byte) : List Event := [
  .note (.calibrating b submodule),
  .read (Dc.submodule b).address (some old),
  .write (Dc.submodule b).address (controlFor b submodule old) true,
  .write (Dc.count b).address ((Dc.count b).set 0 count) true,
  .write (Dc.submodule b).address ((Dc.load b).put (controlFor b submodule old) true) true,
  .write (Dc.submodule b).address (releasedFor b submodule old) true]

/-- The start strobe put and dropped. -/
def strobes (b : Block) (control : Byte) : List Event := [
  .write (Dc.submodule b).address ((Dc.start b).put control true) true,
  .write (Dc.submodule b).address ((Dc.start b).put ((Dc.start b).put control true) false) true]

variable {c : Chip} {b : Block} {past : List Event} {submodule : Nat} {count : BitVec 6}
  {old : Byte}

/-- The bytes of a launch carry the strobe of the byte that has been read, until it is put. -/
theorem isSet_start_controlFor (b : Block) (submodule : Nat) (old : Byte) :
    (Dc.start b).isSet (controlFor b submodule old) = (Dc.start b).isSet old :=
  isSet_start_set_submodule b old _

theorem isSet_start_load_controlFor (b : Block) (submodule : Nat) (old : Byte) :
    (Dc.start b).isSet ((Dc.load b).put (controlFor b submodule old) true) =
      (Dc.start b).isSet old := by
  rw [isSet_start_put_load, isSet_start_controlFor]

theorem isSet_start_releasedFor (b : Block) (submodule : Nat) (old : Byte) :
    (Dc.start b).isSet (releasedFor b submodule old) = (Dc.start b).isSet old := by
  rw [releasedFor, isSet_start_put_load, isSet_start_load_controlFor]

/-- They address the submodule. -/
theorem get_submodule_releasedFor (b : Block) (submodule : Nat) (old : Byte) :
    (Dc.submodule b).get (releasedFor b submodule old) = BitVec.ofNat 3 submodule := by
  rw [releasedFor, get_submodule_put_load, get_submodule_put_load]
  exact BitField.get_set_self _ _ _

/-- A loop that nothing is refused of launches the engine by these events. -/
theorem events_launch (hc : c.Obeys none) (submodule : Nat) (count : BitVec 6) :
    let old := c.registers.get (Dc.submodule b).address
    ((log (.calibrating b submodule) >>= fun _ =>
        launch b submodule count).run transport c).events =
      approach b submodule count old ++ strobes b (releasedFor b submodule old) := by
  intro old
  have hread := run_readByte_transport (stored_control b) hc.reads
  rw [run_bind_of_eq _ _ (run_log transport _ c), launch, run_bind_of_eq _ _ hread]
  dsimp only
  rw [events_writeByte_bind hc, events_writeByte_bind (hc.step _),
    events_writeByte_bind ((hc.step _).step _), events_writeByte_bind (((hc.step _).step _).step _),
    events_writeByte_bind ((((hc.step _).step _).step _).step _),
    run_writeByte_step (((((hc.step _).step _).step _).step _).step _)]
  rfl

/-! ## What the engine holds when it is started -/

/-- A byte for the control register latches the count if it has the load strobe, and no byte does
anything else to what the engines hold. -/
theorem corrections_step_control (hc : c.Obeys none) (b : Block) (control : Byte)
    (accepted : Bool) :
    (c.step (.write (Dc.submodule b).address control accepted)).corrections =
      if (Dc.load b).isSet control then
        c.corrections.set b ((Dc.submodule b).get control) (c.registers.field (Dc.count b))
      else c.corrections := by
  have hne : (Dc.submodule b).address ≠ (Dc.count b).address := by cases b <;> decide
  have hstep : c.step (.write (Dc.submodule b).address control accepted) =
      (c.store (Dc.submodule b).address control).strobe b control := by
    simp [step, Chip.write, hc.writes, store]
  have hfield : (c.store (Dc.submodule b).address control).registers.field (Dc.count b) =
      c.registers.field (Dc.count b) :=
    congrArg (Dc.count b).get (RegisterFile.get_set_of_ne _ hne _)
  rw [hstep]
  simp only [strobe]
  cases (Dc.load b).isSet control <;> cases (Dc.start b).isSet control <;>
    simp [corrections_start, corrections_latch, hfield]

/-- When a loop has approached its start, the submodule holds the count, whatever strobes were put
before. -/
theorem corrections_approach (hc : c.Obeys none) (b : Block) (submodule : Nat) (count : BitVec 6)
    (old : Byte) :
    (c.replay (approach b submodule count old)).corrections b (BitVec.ofNat 3 submodule) =
      count := by
  have hread : c.step (.read (Dc.submodule b).address (some old)) = c := by
    rcases read_stored (stored_control b) c with hr | hr <;> simp [step, hr]
  have haddressed := hc.step (.write (Dc.submodule b).address (controlFor b submodule old) true)
  have hcounted := haddressed.step
    (.write (Dc.count b).address ((Dc.count b).set 0 count) true)
  have hloaded := hcounted.step (.write (Dc.submodule b).address
    ((Dc.load b).put (controlFor b submodule old) true) true)
  have hput : (Dc.load b).isSet ((Dc.load b).put (controlFor b submodule old) true) = true :=
    BitField.isSet_put _ _ _
  have hdropped : (Dc.load b).isSet (releasedFor b submodule old) = false :=
    BitField.isSet_put _ _ _
  have hplace : (Dc.submodule b).get ((Dc.load b).put (controlFor b submodule old) true) =
      BitVec.ofNat 3 submodule :=
    (get_submodule_put_load b _ true).trans (BitField.get_set_self _ _ _)
  -- only the byte that puts the load strobe latches, and by then the count has been written
  simp only [approach, replay_cons, replay_nil]
  rw [show c.step (.note (.calibrating b submodule)) = c from rfl, hread,
    corrections_step_control hloaded, if_neg (by simp [hdropped]),
    corrections_step_control hcounted, if_pos hput, hplace, Corrections.set_self,
    RegisterFile.field, haddressed.registers_step_write, RegisterFile.get_set_self,
    BitField.get_set_self]

/-! ## Starts in step with loops -/

/-- The starts that a strobe which has been left up adds to a calibration. -/
def surplus (b : Block) (c : Chip) : Nat :=
  if c.registers.flag (Dc.start b) then 3 else 0

/-- The event starts the submodule of a loop that has just approached its start, and the count of
the loop is what that submodule holds. -/
def Latched (b : Block) (c : Chip) (past : List Event) (e : Event) : Prop :=
  ∃ earlier submodule count old control,
    past = earlier ++ approach b submodule count old ∧
    e = .write (Dc.start b).address control true ∧
    (Dc.submodule b).get control = BitVec.ofNat 3 submodule ∧
    (c.replay past).corrections b (BitVec.ofNat 3 submodule) = count

/-- From a chip on there has been one start in each loop, and the surplus in the first loop. From
the first loop on no strobe is left up, and beyond the surplus every start is in its place. -/
structure InStep (b : Block) (c : Chip) (past : List Event) : Prop where
  perLoop : startsPerLoop past =
    if loopsIn past = 0 then [0]
    else List.replicate (loopsIn past - 1) 1 ++ [1 + surplus b c, 0]
  strobe : (c.replay past).registers.flag (Dc.start b) =
    (c.registers.flag (Dc.start b) && loopsIn past == 0)
  latched : ∀ pre e post, past = pre ++ e :: post → e.isStart → surplus b c ≤ startsIn pre →
    Latched b c pre e

/-- Before any event the loops are in step. -/
theorem inStep_nil : InStep b c [] where
  perLoop := rfl
  strobe := (Bool.and_true _).symm
  latched := by simp

/-- An event of two parts is in the first one or in the second one. -/
theorem split_of_append {left right pre post : List Event} {e : Event}
    (h : left ++ right = pre ++ e :: post) :
    (∃ mid, left = pre ++ e :: mid) ∨ ∃ mid, pre = left ++ mid ∧ right = mid ++ e :: post := by
  rcases List.append_eq_append_iff.1 h with ⟨mid, rfl, hright⟩ | ⟨mid, rfl, hpost⟩
  · exact .inr ⟨mid, rfl, hright⟩
  · cases mid with
    | nil => exact .inr ⟨[], by simp, hpost.symm⟩
    | cons x mid =>
      obtain rfl := (List.cons.inj hpost).1
      exact .inl ⟨mid, rfl⟩

/-- They stay in step over events beside the launches. -/
theorem InStep.beside (h : InStep b c past) {new : List Event} (hnew : ∀ e ∈ new, e.Beside) :
    InStep b c (past ++ new) where
  perLoop := by
    rw [startsPerLoop_of_beside past hnew, loopsIn_append, loopsIn_of_beside hnew, Nat.add_zero,
      h.perLoop]
  strobe := by
    have hcontrol : ∀ value accepted, .write (Dc.start b).address value accepted ∉ new := by
      intro value accepted hmem
      exact control_ne_memory b (hnew _ hmem)
    rw [replay_append, RegisterFile.flag, get_replay_of_not_written hcontrol, ← RegisterFile.flag,
      h.strobe, loopsIn_append, loopsIn_of_beside hnew, Nat.add_zero]
  latched pre e post heq hstart hsurplus := by
    rcases split_of_append heq with ⟨mid, hpast⟩ | ⟨mid, rfl, hright⟩
    · exact h.latched pre e mid hpast hstart hsurplus
    · have hbeside := hnew e (hright ▸ List.mem_append_right _ List.mem_cons_self)
      rw [hbeside.isStart] at hstart
      cases hstart

/-- A strobe that is left up starts the engine at each of the three writes before the launch puts
it. -/
theorem startsIn_approach (b : Block) (submodule : Nat) (count : BitVec 6) (old : Byte) :
    startsIn (approach b submodule count old) = if (Dc.start b).isSet old then 3 else 0 := by
  have hnote : (Event.note (.calibrating b submodule)).isStart = false := rfl
  have hread : (Event.read (Dc.submodule b).address (some old)).isStart = false := rfl
  simp only [startsIn, approach, List.countP_cons, List.countP_nil, hnote, hread,
    Event.isStart_control, Event.isStart_count, isSet_start_controlFor,
    isSet_start_load_controlFor, isSet_start_releasedFor]
  cases (Dc.start b).isSet old <;> rfl

/-- A launch counts as a loop with its start, and with three more if it has found a strobe up. -/
theorem foldl_countStart_launch (b : Block) (submodule : Nat) (count : BitVec 6) (old : Byte)
    (counts : List Nat) :
    (approach b submodule count old ++ strobes b (releasedFor b submodule old)).foldl
        Event.countStart counts =
      (if (Dc.start b).isSet old then 4 else 1) :: counts := by
  simp only [approach, strobes, List.cons_append, List.nil_append, List.foldl_cons, List.foldl_nil,
    Event.countStart, Event.isLoop, Event.isStart_control, Event.isStart_count,
    isSet_start_controlFor, isSet_start_load_controlFor, isSet_start_releasedFor,
    BitField.isSet_put]
  cases (Dc.start b).isSet old <;> rfl

/-- The start strobe put and dropped leaves none. -/
theorem flag_strobes (hc : c.Obeys none) (b : Block) (control : Byte) :
    (c.replay (strobes b control)).registers.flag (Dc.start b) = false := by
  rw [strobes, replay_cons, replay_cons, replay_nil, (hc.step _).registers_step_write,
    flag_set_control]
  exact BitField.isSet_put _ _ _

/-- In a launch the engine is started in its place; any start before that is due to a strobe that
the loop has found up. -/
theorem latched_launch (hc : c.Obeys none) (past : List Event) (submodule : Nat)
    (count : BitVec 6) (old : Byte) {pre post : List Event} {e : Event}
    (h : approach b submodule count old ++ strobes b (releasedFor b submodule old) =
      pre ++ e :: post) (he : e.isStart) :
    startsIn pre < (if (Dc.start b).isSet old then 3 else 0) ∨ Latched b c (past ++ pre) e := by
  rcases split_of_append h with ⟨mid, hbefore⟩ | ⟨mid, rfl, hstrobes⟩
  · -- the event is one of the starts of the approach, so fewer than all of them come before it
    have hcount := congrArg startsIn hbefore
    have hfirst : startsIn (e :: mid) = startsIn mid + 1 := List.countP_cons_of_pos he
    rw [startsIn_approach, startsIn_append, hfirst] at hcount
    exact .inl (by omega)
  · -- the second of the two strobes is no start, and after it there is nothing
    match mid with
    | [] =>
      -- the loop's own start: nothing but its approach is between it and the events before
      obtain ⟨rfl, -⟩ := List.cons.inj hstrobes
      refine .inr ⟨past, submodule, count, old, _, by simp, rfl, ?_, ?_⟩
      · rw [get_submodule_put_start, get_submodule_releasedFor]
      · rw [List.append_nil, replay_append]
        exact corrections_approach (hc.replay past) b submodule count old
    | [_] =>
      obtain ⟨-, hlast⟩ := List.cons.inj hstrobes
      obtain ⟨rfl, -⟩ := List.cons.inj hlast
      simp at he
    | _ :: _ :: _ =>
      obtain ⟨-, hlast⟩ := List.cons.inj hstrobes
      obtain ⟨-, hnone⟩ := List.cons.inj hlast
      simp at hnone

/-- Another launch keeps them in step. -/
theorem InStep.launch (hc : c.Obeys none) (h : InStep b c past) (submodule : Nat)
    (count : BitVec 6) :
    InStep b c (past ++ ((log (.calibrating b submodule) >>= fun _ =>
      launch b submodule count).run transport (c.replay past)).events) := by
  have hnow := hc.replay past
  rw [events_launch hnow]
  generalize hold : (c.replay past).registers.get (Dc.submodule b).address = old
  have hflag : (Dc.start b).isSet old = (c.registers.flag (Dc.start b) && loopsIn past == 0) := by
    rw [← h.strobe, ← hold]
    rfl
  have hloops : loopsIn (approach b submodule count old ++
      strobes b (releasedFor b submodule old)) = 1 := rfl
  -- a strobe is found up only in the first loop, before which nothing has been started
  have hfound : loopsIn past = 0 ∧ startsIn past = 0 ∧
      (if (Dc.start b).isSet old then 3 else 0) = surplus b c ∨
        0 < loopsIn past ∧ (Dc.start b).isSet old = false := by
    rcases Nat.eq_zero_or_pos (loopsIn past) with hfirst | hlater
    · have hnone := sum_startsPerLoop past
      rw [h.perLoop, if_pos hfirst] at hnone
      exact .inl ⟨hfirst, hnone.symm, by simp [hflag, hfirst, surplus]⟩
    · exact .inr ⟨hlater, by simp [hflag, hlater.ne']⟩
  refine ⟨?_, ?_, fun pre e post heq he hsurplus => ?_⟩
  · rw [startsPerLoop, List.foldl_append, ← startsPerLoop, foldl_countStart_launch, h.perLoop,
      loopsIn_append, hloops, if_neg (Nat.succ_ne_zero _)]
    rcases hfound with ⟨hfirst, -, hsame⟩ | ⟨hlater, hclear⟩
    · rw [if_pos hfirst, hfirst, ← hsame]
      cases (Dc.start b).isSet old <;> rfl
    · obtain ⟨n, hn⟩ := Nat.exists_eq_succ_of_ne_zero hlater.ne'
      rw [if_neg hlater.ne', hclear, hn]
      rfl
  · rw [loopsIn_append, hloops, replay_append, replay_append, flag_strobes (hnow.replay _)]
    simp
  · rcases split_of_append heq with ⟨mid, hpast⟩ | ⟨mid, rfl, hright⟩
    · exact h.latched pre e mid hpast he hsurplus
    · rcases latched_launch hc past submodule count old hright he with hfew | hlatched
      · rw [startsIn_append] at hsurplus
        rcases hfound with ⟨-, hnone, hsame⟩ | ⟨-, hclear⟩
        · omega
        · simp [hclear] at hfew
      · exact hlatched

/-- A calibration that nothing is refused of keeps its starts in step with its loops. -/
theorem inStep_calibrate (hc : c.Obeys none) (b : Block) :
    InStep b c ((calibrate b).run transport c).events := by
  have hnote (past : List Event) (entry : Note)
      (hentry : ∀ b submodule, entry ≠ .calibrating b submodule) (h : InStep b c past) :
      InStep b c (past ++ [.note entry]) := by
    have hbeside : (Event.note entry).Beside := by
      cases entry with
      | calibrating b submodule => exact hentry b submodule rfl
      | _ => trivial
    exact h.beside (by simpa using hbeside)
  -- beside the launches nothing is started and no control register is written
  have hforced := holds_of_parts (b := b) (compositional_proceeds c hnote)
    (fun hp past h => h.beside (hp.run _ _)) fun submodule count past h =>
      h.launch hc submodule count
  rw [run_calibrate]
  exact hforced.run inStep_nil

/-! ## The first loop -/

/-- A loop notes its submodule. -/
theorem mem_settle (c : Chip) (b : Block) (submodule : Nat) (count : BitVec 6) :
    .note (.calibrating b submodule) ∈ ((settle b submodule count).run transport c).events := by
  rw [settle_eq]
  exact mem_events_bind (by simp) _

/-- The first attempt comes to its first loop. -/
theorem mem_converge (hc : c.Obeys none) (b : Block) (gains : Gains) :
    .note (.calibrating b 0) ∈ ((converge b gains).run transport c).events := by
  have hfirst : .note (.calibrating b 0) ∈ ((calibrateSubmodule b 0).run transport c).events := by
    obtain ⟨_, hrouted⟩ := ok_of_aside (aside_routeStages b 0)
      (careful_routeStages (allows_all b) (submodules_pos b)) hc
    rw [calibrateSubmodule, run_bind_of_ok _ _ hrouted]
    exact List.mem_append_right _ (mem_events_bind (mem_settle _ b 0 startCount) _)
  have hattempt : .note (.calibrating b 0) ∈ ((attemptBlock b).run transport c).events := by
    obtain ⟨more, hmore⟩ := Nat.exists_eq_succ_of_ne_zero (submodules_pos b).ne'
    rw [attemptBlock, hmore, List.range_succ_eq_map]
    exact mem_events_bind hfirst _
  rw [converge]
  exact mem_events_bind hattempt _

/-- A calibration that nothing is refused of comes to its first loop, if the gain of the LNA is a
setting. -/
theorem loopsIn_calibrate_pos (hc : c.Obeys none) (hgain : ¬ GainUnknown b c.registers) :
    0 < loopsIn ((calibrate b).run transport c).events := by
  have hbackup := takeBackup_ok hc hgain
  have hbacked := hc.run (takeBackup b)
  obtain ⟨_, hset⟩ := ok_of_aside (emits_setUp aside_read aside_write (fun _ _ => rfl) b
    (Backup.of b c.registers)) (careful_setUp (allows_all b) _) hbacked
  have hmem : .note (.calibrating b 0) ∈ ((calibrate b).run transport c).events := by
    rw [run_calibrate, run_bind_of_ok _ _ hbackup, run_forceAll_cons, setUpAndConverge,
      run_bind_of_ok _ _ hset]
    refine List.mem_append_right _ (List.mem_append_left _ (List.mem_append_right _ ?_))
    exact mem_converge (hbacked.run _) b .highest
  exact List.countP_pos_iff.2 ⟨_, hmem, rfl⟩

/-! ## Recovery -/

/-- Among commands that have not been raw no gain of the LNA is unknown. -/
theorem not_gainUnknown_of_reached {commands : List Command} (h : c.Reached commands) (b : Block) :
    ¬ GainUnknown b c.registers := by
  have hdocumented : c.registers.Documented :=
    h.invariant documented_initial Command.maintains_documented
  exact fun hunknown => encoded_lnaControl.1 (hdocumented lnaControl) hunknown.2

/-- What a calibration from which nothing is refused does on a chip that any commands but raw ones
have led to since power on, whatever has been refused of them. It runs loops. If no start strobe of
its block is left up, it starts the engine once for each of them, right after the loop has latched
its count into the submodule that it addresses. If one is left up, there are three starts more, and
this holds of all but the first three. A strobe is left up exactly if the write that was to drop it
has been refused, and nothing has dropped it since; no calibration leaves one up. -/
theorem calibrate_recovers {history : List Event} (h : Recalled history c)
    (hread : c.failRead = none) (hwrite : c.failWrite = none) (b : Block) :
    let o := (calibrate b).run transport c
    let left := c.registers.flag (Dc.start b)
    (left = true ↔ Stranded b history) ∧
      0 < loopsIn o.events ∧
      startsPerLoop o.events =
        List.replicate (loopsIn o.events - 1) 1 ++ [if left then 4 else 1, 0] ∧
      o.state.starts = c.starts + loopsIn o.events + (if left then 3 else 0) ∧
      (∀ pre e post, o.events = pre ++ e :: post → e.isStart →
        (if left then 3 else 0) ≤ startsIn pre → Latched b c pre e) ∧
      o.state.registers.flag (Dc.start b) = false := by
  intro o left
  have hc : c.Obeys none := ⟨hread, hwrite, fun _ hw => nomatch hw⟩
  obtain ⟨commands, hreached⟩ := h.reached
  have hpos : 0 < loopsIn o.events :=
    loopsIn_calibrate_pos hc (not_gainUnknown_of_reached hreached b)
  have hinstep : InStep b c o.events := inStep_calibrate hc b
  -- a strobe that was left behind shows in the first loop only
  have hperLoop := hinstep.perLoop
  rw [if_neg hpos.ne'] at hperLoop
  refine ⟨h.flag_start_iff b, hpos, ?_, ?_, hinstep.latched, ?_⟩
  · have hfirst : 1 + surplus b c = if left then 4 else 1 := by
      simp only [surplus, left]
      split <;> rfl
    rw [← hfirst]
    exact hperLoop
  · have hsum := sum_startsPerLoop o.events
    rw [hperLoop, List.sum_append, List.sum_replicate_nat, List.sum_cons, List.sum_singleton]
      at hsum
    have hstarts : o.state.starts = c.starts + startsIn o.events := starts_run _ _
    show o.state.starts = c.starts + loopsIn o.events + surplus b c
    omega
  · have hstrobe := hinstep.strobe
    rw [← state_run] at hstrobe
    rw [hstrobe]
    simpa using fun _ => hpos.ne'

/-- The write that drops the start strobe is refused, and the next calibration of the block starts
the engine four times in its one loop. -/
theorem calibrate_recovers_stranded :
    let cut := (Command.calibrate .lpfTuning).procedure.run (bus (· == 8)) (0, initial)
    let o := (calibrate .lpfTuning).run transport cut.state.2
    cut.result.isOk = false ∧ Stranded .lpfTuning cut.events ∧ startsPerLoop o.events = [4, 0] ∧
      o.state.starts = cut.state.2.starts + 4 ∧
      o.state.registers.flag (Dc.start .lpfTuning) = false := by
  intro cut o
  have hrecalled : Recalled ([] ++ cut.events) cut.state.2 :=
    .command (.powerOn rfl) rfl rfl (· == 8) 0
  have hleft : cut.state.2.registers.flag (Dc.start .lpfTuning) = true := by decide +kernel
  have hloops : loopsIn o.events = 1 := by decide +kernel
  obtain ⟨hstranded, -, hperLoop, hstarts, -, hdropped⟩ :=
    calibrate_recovers hrecalled (by decide +kernel) (by decide +kernel) .lpfTuning
  rw [if_pos hleft, hloops] at hperLoop hstarts
  exact ⟨by decide +kernel, hstranded.1 hleft, hperLoop, hstarts, hdropped⟩

/-- In that loop the engine is first started by the byte that addresses the submodule, before a
count has been written. -/
theorem calibrate_starts_before_latch :
    let cut := (Command.calibrate .lpfTuning).procedure.run (bus (· == 8)) (0, initial)
    let c := cut.state.2
    let o := (calibrate .lpfTuning).run transport c
    c.failRead = none ∧ c.failWrite = none ∧ o.result = .ok () ∧ loopsIn o.events = 1 ∧
      o.state.starts ≠ c.starts + loopsIn o.events ∧
      ∃ pre e post, o.events = pre ++ e :: post ∧ e.isStart = true ∧
        pre = [.read clockEnable (some 0), .write clockEnable 0x20 true,
          .note (.calibrating .lpfTuning 0),
          .read (Dc.submodule .lpfTuning).address (some 0x20)] := by
  intro cut c o
  refine ⟨by decide +kernel, by decide +kernel, by decide +kernel, by decide +kernel,
    by decide +kernel, _, .write (Dc.start .lpfTuning).address 0x20 true, o.events.drop 5, ?_,
    by decide, rfl⟩
  decide +kernel

end Calibration

end Transceiver
