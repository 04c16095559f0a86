import Transceiver.Proofs.CalibrationBudgets
import Transceiver.Proofs.CalibrationEngines

/-!
# The ledger of a calibration

What a calibration comes to on the simulated chip is settled by how many polls a run stays busy and
by the results that are in store. The ledger holds what there is to follow besides the registers:
the values of all engines, the results that are left, the starts so far, and the pauses since each
of them. A part of a calibration either enters a number of starts or leaves the ledger alone.
-/

namespace Transceiver

open Procedure Register

/-- The pauses since each start, the latest first, with an event counted. -/
def Event.tally (b : Calibration.Block) (pauses : List Nat) : Event → List Nat
  | .write address value true =>
    if address = (Dc.start b).address ∧ (Dc.start b).isSet value then 0 :: pauses else pauses
  | .pause _ => pauses.modifyHead (· + 1)
  | .read _ _ | .write _ _ false | .note _ => pauses

namespace Event

variable (b : Calibration.Block) (pauses : List Nat)

@[simp] theorem tally_read (address : Address) (answer : Option Byte) :
    Event.tally b pauses (.read address answer) = pauses :=
  rfl

/-- A byte written to the control register counts if it has the start strobe put. -/
theorem tally_control (control : Byte) :
    Event.tally b pauses (.write (Dc.submodule b).address control true) =
      if (Dc.start b).isSet control then 0 :: pauses else pauses := by
  have haddress : (Dc.submodule b).address = (Dc.start b).address := rfl
  simp [tally, haddress]

/-- Writing a count is no start. -/
theorem tally_count (count : Byte) :
    Event.tally b pauses (.write (Dc.count b).address count true) = pauses := by
  have hne : (Dc.count b).address ≠ (Dc.start b).address := by cases b <;> decide
  exact if_neg fun hset => hne hset.1

end Event

namespace Calibration

/-- The pauses since each start among some events, the latest first and the pauses before all
starts last. -/
def pausesPerStart (b : Block) (events : List Event) : List Nat :=
  events.foldl (Event.tally b) [0]

/-! ## Ledgers -/

/-- What there is to follow of a calibration besides the registers. -/
structure Ledger where
  corrections : Corrections
  results : List Byte
  starts : Nat
  /-- The pauses since each start, the latest first. -/
  pauses : List Nat

/-- The ledger after some runs that leave some corrections, with the same number of pauses each. -/
def Ledger.after (ledger : Ledger) (corrections : Corrections) (runs pauses : Nat) : Ledger where
  corrections := corrections
  results := ledger.results.drop runs
  starts := ledger.starts + runs
  pauses := List.replicate runs pauses ++ ledger.pauses

@[simp] theorem Ledger.corrections_after (ledger : Ledger) (held : Corrections)
    (runs pauses : Nat) : (ledger.after held runs pauses).corrections = held :=
  rfl

@[simp] theorem Ledger.results_after (ledger : Ledger) (held : Corrections) (runs pauses : Nat) :
    (ledger.after held runs pauses).results = ledger.results.drop runs :=
  rfl

/-- Runs add up in the ledger, and the corrections are those after the last. -/
theorem Ledger.after_after (ledger : Ledger) (held held' : Corrections) (runs runs' pauses : Nat) :
    (ledger.after held runs pauses).after held' runs' pauses =
      ledger.after held' (runs + runs') pauses := by
  simp only [after, List.drop_drop, Nat.add_assoc, ← List.append_assoc,
    List.replicate_append_replicate]
  rw [Nat.add_comm runs' runs]

@[simp] theorem Corrections.set_self (held : Corrections) (b : Block) (submodule : BitVec 3)
    (value : BitVec 6) : held.set b submodule value b submodule = value :=
  if_pos ⟨rfl, rfl⟩

/-- Of two values set at a place the second one stays. -/
theorem Corrections.set_set (held : Corrections) (b : Block) (submodule : BitVec 3)
    (first second : BitVec 6) :
    (held.set b submodule first).set b submodule second = held.set b submodule second := by
  funext b' submodule'
  simp only [set]
  split <;> rfl

end Calibration

namespace Chip

open Calibration

/-- The ledger of a chip, with the pauses that have been counted. -/
def ledger (c : Chip) (pauses : List Nat) : Ledger :=
  ⟨c.corrections, c.results, c.starts, pauses⟩

/-- No access is refused, no strobe of the block is put, and runs stay busy for some polls. -/
structure Poised (b : Block) (polls : Option Nat) (c : Chip) : Prop where
  obeys : c.Obeys none
  idle : b.Idle (c.registers.get (Dc.submodule b).address)
  polls : c.busyPolls = polls

end Chip

namespace Procedure

variable {α β : Type}

/-- On any chip that is poised and has the ledger `before`, the procedure ends in the result, with
the chip poised again and with the ledger `after`. -/
def Books (b : Calibration.Block) (polls : Option Nat) (p : Procedure α)
    (before : Calibration.Ledger) (result : Except Fault α) (after : Calibration.Ledger) : Prop :=
  ∀ c pauses, c.Poised b polls → c.ledger pauses = before →
    let o := p.run Chip.transport c
    o.result = result ∧ o.state.Poised b polls ∧
      o.state.ledger (o.events.foldl (Event.tally b) pauses) = after

variable {b : Calibration.Block} {polls : Option Nat} {ledger ledger' ledger'' : Calibration.Ledger}

/-- A result changes nothing in the ledger. -/
theorem books_pure (a : α) : (pure a : Procedure α).Books b polls ledger (.ok a) ledger :=
  fun _ _ hpoised hledger => ⟨rfl, hpoised, hledger⟩

theorem books_fail (fault : Fault) :
    (fail fault : Procedure α).Books b polls ledger (.error fault) ledger :=
  fun _ _ hpoised hledger => ⟨rfl, hpoised, hledger⟩

theorem books_log (entry : Note) :
    (log entry).Books b polls ledger (.ok ()) ledger :=
  fun _ _ hpoised hledger => ⟨rfl, hpoised, hledger⟩

/-- A sequence books its second part on the ledger that the first has left. -/
theorem Books.bind {p : Procedure α} {f : α → Procedure β} {a : α} {result : Except Fault β}
    (hp : p.Books b polls ledger (.ok a) ledger')
    (hf : (f a).Books b polls ledger' result ledger'') :
    (p >>= f).Books b polls ledger result ledger'' := by
  intro c pauses hpoised hledger
  obtain ⟨hresult, hmid, hbetween⟩ := hp c pauses hpoised hledger
  rw [run_bind_of_ok _ _ hresult]
  dsimp only
  rw [List.foldl_append]
  exact hf _ _ hmid hbetween

/-- Forced steps book one after the other, and the first fault of all is their result. -/
theorem Books.forceAll_cons {p : Procedure Unit} {rest : List (Procedure Unit)}
    {first others : Except Fault Unit} (hp : p.Books b polls ledger first ledger')
    (hrest : (forceAll rest).Books b polls ledger' others ledger'') :
    (forceAll (p :: rest)).Books b polls ledger (first *> others) ledger'' := by
  intro c pauses hpoised hledger
  obtain ⟨hresult, hmid, hbetween⟩ := hp c pauses hpoised hledger
  obtain ⟨hothers, hend, hfinal⟩ := hrest _ _ hmid hbetween
  rw [run_forceAll_cons]
  dsimp only
  rw [List.foldl_append, hresult, hothers]
  exact ⟨rfl, hend, hfinal⟩

end Procedure

/-! ## Parts that leave the ledger alone -/

/-- An access to plain memory, or a note that is no alarm. -/
def Event.Aside : Event → Prop
  | .read address _ | .write address _ _ => Site.at address = .memory
  | .note entry => entry.isAlarm = false
  | .pause _ => False

/-- An event aside of the engine is no start and no pause. -/
theorem Event.Aside.tally {b : Calibration.Block} {e : Event} (he : e.Aside) (pauses : List Nat) :
    e.tally b pauses = pauses := by
  cases e with
  | read address answer | note entry => rfl
  | pause microseconds => exact he.elim
  | write address value accepted =>
    cases accepted with
    | false => rfl
    | true =>
      apply if_neg
      rintro ⟨rfl, -⟩
      have hcontrol : Site.at (Dc.start b).address = .control b := Site.at_submodule b
      exact nomatch hcontrol.symm.trans he

namespace Procedure

open Chip

variable {α β : Type} {b : Calibration.Block} {polls : Option Nat} {W : Address → Byte → Prop}
  {ledger ledger' : Calibration.Ledger}

/-- Asides move plain memory and nothing else of the chip, and nothing of them is refused. -/
theorem state_of_aside {p : Procedure α} (hp : p.Emits Event.Aside) {c : Chip}
    (hc : c.Obeys none) :
    let o := p.run transport c
    o.state = { c with registers := c.registers.after o.events } ∧ ∀ e ∈ o.events, e.isCalm := by
  -- a register of plain memory is read as it is and written without anything else
  induction p generalizing c with
  | done result => exact ⟨rfl, by simp [run]⟩
  | read address next ih =>
    have hsite : Site.at address = .memory := (hp none).1
    have hread : c.read address = (some (c.registers.get address), c) := by
      simp [Chip.read, hc.reads, hsite]
    obtain ⟨hstate, hcalm⟩ := ih _ (hp (some (c.registers.get address))).2 hc
    simp only [run, transport, hread]
    exact ⟨hstate, List.forall_mem_cons.2 ⟨rfl, hcalm⟩⟩
  | write address value next ih =>
    have hsite : Site.at address = .memory := (hp true).1
    have hwrite : c.write address value = (true, c.store address value) := by
      simp [Chip.write, hc.writes, hsite, store]
    obtain ⟨hstate, hcalm⟩ := ih _ (hp true).2 (hc.store address value)
    simp only [run, transport, hwrite]
    exact ⟨hstate, List.forall_mem_cons.2 ⟨rfl, hcalm⟩⟩
  | note entry next ih =>
    obtain ⟨hstate, hcalm⟩ := ih hp.2 hc
    have hentry : entry.isAlarm = false := hp.1
    refine ⟨hstate, List.forall_mem_cons.2 ⟨?_, hcalm⟩⟩
    simp [Event.isCalm, Event.isRefused, Event.isAlarm, hentry]
  | pause microseconds next ih => exact hp.1.elim

/-- A register that is no plain memory is not written by asides. -/
theorem get_after_aside {events : List Event} (h : ∀ e ∈ events, e.Aside) {address : Address}
    (hsite : Site.at address ≠ .memory) (r : RegisterFile) :
    (r.after events).get address = r.get address :=
  RegisterFile.get_after (fun value hmem => hsite (h (.write address value true) hmem)) r

theorem foldl_tally_of_aside {events : List Event} (h : ∀ e ∈ events, e.Aside)
    (pauses : List Nat) : events.foldl (Event.tally b) pauses = pauses := by
  induction events with
  | nil => rfl
  | cons e rest ih =>
    obtain ⟨he, hrest⟩ := List.forall_mem_cons.1 h
    rw [List.foldl_cons, he.tally, ih hrest]

/-- Asides keep the chip poised and the ledger as it is, and nothing of them is refused. -/
theorem run_aside {p : Procedure α} (hp : p.Emits Event.Aside) {c : Chip} (hc : c.Poised b polls)
    (pauses : List Nat) :
    let o := p.run transport c
    o.state.Poised b polls ∧
      o.state.ledger (o.events.foldl (Event.tally b) pauses) = c.ledger pauses ∧
      ∀ e ∈ o.events, e.isCalm := by
  intro o
  obtain ⟨hstate, hcalm⟩ := state_of_aside hp hc.obeys
  have haside : ∀ e ∈ o.events, e.Aside := hp.run transport c
  have hcontrol : Site.at (Dc.submodule b).address ≠ .memory := by simp
  refine ⟨?_, ?_, hcalm⟩
  · rw [hstate]
    refine ⟨⟨hc.obeys.reads, hc.obeys.writes, fun _ hw => nomatch hw⟩, ?_, hc.polls⟩
    rw [get_after_aside haside hcontrol]
    exact hc.idle
  · rw [foldl_tally_of_aside haside, hstate]
    rfl

/-- Careful asides end well. -/
theorem ok_of_aside {p : Procedure α} (hp : p.Emits Event.Aside)
    (hcareful : p.Careful W fun _ => False) {c : Chip} (hc : c.Obeys none) :
    ∃ a, (p.run transport c).result = .ok a := by
  obtain ⟨-, hcalm⟩ := state_of_aside hp hc
  cases hcareful.run transport c with
  | calm _ hresult =>
    cases hr : (p.run transport c).result with
    | ok a => exact ⟨a, rfl⟩
    | error fault => exact (hresult fault hr).elim
  | failed pre e post hevents _ hfailure _ _ =>
    have he := hcalm e (hevents ▸ List.mem_append_right _ List.mem_cons_self)
    simp [hfailure] at he

/-- A sequence that begins with an aside goes on with what that returns. -/
theorem books_aside_bind {p : Procedure α} {f : α → Procedure β} {result : Except Fault β}
    (hp : p.Emits Event.Aside) (hcareful : p.Careful W fun _ => False)
    (hf : ∀ a, (f a).Books b polls ledger result ledger') :
    (p >>= f).Books b polls ledger result ledger' := by
  intro c pauses hpoised hledger
  obtain ⟨a, ha⟩ := ok_of_aside hp hcareful hpoised.obeys
  obtain ⟨hmid, hkept, -⟩ := run_aside hp hpoised pauses
  rw [run_bind_of_ok _ _ ha]
  dsimp only
  rw [List.foldl_append]
  exact hf a _ _ hmid (hkept.trans hledger)

/-- A step aside of the engine leaves the ledger as it is. -/
theorem books_aside {p : Procedure Unit} (hp : p.Emits Event.Aside)
    (hcareful : p.Careful W fun _ => False) : p.Books b polls ledger (.ok ()) ledger := by
  intro c pauses hpoised hledger
  obtain ⟨_, hresult⟩ := ok_of_aside hp hcareful hpoised.obeys
  obtain ⟨hend, hkept, -⟩ := run_aside hp hpoised pauses
  exact ⟨hresult, hend, hkept.trans hledger⟩

end Procedure

/-! ## The loop -/

namespace Chip

open Calibration

variable {c : Chip} {b : Block} {polls : Option Nat} {submodule : BitVec 3} {result : BitVec 6}

/-- A launch latches the count and puts a run of the submodule under way. -/
theorem launch_eq (b : Block) (submodule : Nat) (count : BitVec 6) :
    launch b submodule count = (do
      let old ← readByte (Dc.submodule b).address
      let control := (Dc.submodule b).set old (BitVec.ofNat 3 submodule)
      let released := (Dc.load b).put ((Dc.load b).put control true) false
      latchCount b control count released
      putStart b released) := by
  simp only [launch, latchCount, putStart, LawfulMonad.bind_assoc]
  rfl

/-- A launch starts a run of the engine at the place it addresses, which takes the next result. -/
theorem run_launch (hc : c.Poised b polls) (submodule : Nat) (count : BitVec 6)
    (pauses : List Nat) :
    let o := (launch b submodule count).run transport c
    let place := BitVec.ofNat 3 submodule
    o.result = .ok () ∧ o.state.Poised b polls ∧
      o.state.registers.field (Dc.submodule b) = place ∧
      (o.state.engines.get b).run = some ⟨place, upcoming c.results, polls⟩ ∧
      o.state.ledger (o.events.foldl (Event.tally b) pauses) =
        ⟨c.corrections.set b place count, c.results.tail, c.starts + 1, 0 :: pauses⟩ := by
  intro o place
  let control := (Dc.submodule b).set (c.registers.get (Dc.submodule b).address) place
  let released := (Dc.load b).put ((Dc.load b).put control true) false
  have hcontrol : b.Idle control := hc.idle.set_submodule place
  have hreleased : b.Idle released := hcontrol.release_load
  have hobeys := hc.obeys.latched b control count released
  -- the strobes leave the submodule addressed
  have haddressed : (Dc.submodule b).get control = place := BitField.get_set_self _ _ _
  have haddressed' : (Dc.submodule b).get released = place := by
    rw [get_submodule_put_load, get_submodule_put_load, haddressed]
  have ho : o = _ := (congrArg (run transport · c) (launch_eq b submodule count)).trans
    (run_bind_of_eq _ _ (run_readByte_transport (stored_control b) hc.obeys.reads))
  rw [ho, run_bind_of_eq _ _ (run_latchCount hc.obeys hcontrol hreleased count),
    run_putStart hobeys hreleased]
  refine ⟨rfl, ⟨hobeys.begun b released, ?_, hc.polls⟩, ?_, ?_, ?_⟩
  · rw [get_begun]
    exact hreleased.release_start
  · rw [RegisterFile.field, get_begun, get_submodule_put_start, get_submodule_put_start,
      haddressed']
  · rw [← hc.polls, ← haddressed']
    exact run_start _ b _
  · have hheld : ((c.latched b control count released).begun b released).corrections =
        c.corrections.set b place count := by
      rw [corrections_begun, corrections_latched, haddressed]
    have hload : (Dc.start b).isSet ((Dc.load b).put control true) = false := by
      rw [isSet_start_put_load, hcontrol.start]
    have hstart : (Dc.start b).isSet ((Dc.start b).put released true) = true :=
      BitField.isSet_put _ _ _
    -- of all writes, one has the start strobe put
    simp only [List.foldl_cons, List.foldl_nil, List.cons_append, List.nil_append,
      Event.tally_read, Event.tally_control, Event.tally_count, hcontrol.start, hload,
      hreleased.start, hstart, hreleased.release_start.start, ledger, hheld]
    rfl

/-! ## Waiting -/

/-- A poll is answered by the engine. -/
theorem run_readByte_busy (hc : c.Obeys none) (b : Block) :
    (readByte (Dc.busy b).address).run transport c =
      ⟨.ok (c.poll b).1, (c.poll b).2, [.read (Dc.busy b).address (some (c.poll b).1)]⟩ := by
  have hread : c.read (Dc.busy b).address = (some (c.poll b).1, (c.poll b).2) := by
    simp [read, hc.reads]
  rw [run_readByte]
  simp [transport, hread]

/-- A poll moves nothing but the engine of its block. -/
theorem Poised.poll (hc : c.Poised b polls) : (c.poll b).2.Poised b polls :=
  ⟨⟨hc.obeys.reads, hc.obeys.writes, fun _ hw => nomatch hw⟩, hc.idle, hc.polls⟩

/-- The poll that finds a run at its end puts its result into the submodule. -/
theorem poll_of_last (hrun : (c.engines.get b).run = some ⟨submodule, result, some 0⟩) :
    (Dc.busy b).isSet (c.poll b).1 = false ∧
      (c.poll b).2.corrections = c.corrections.set b submodule result := by
  have hpoll : (c.engines.get b).poll =
      (false, { (c.engines.get b).store submodule result with run := none }) := by
    simp only [Engine.poll, hrun]
  constructor
  · exact (BitField.isSet_put _ _ _).trans (congrArg Prod.fst hpoll)
  · simp only [poll, hpoll]
    exact corrections_storeEngine c b fun _ => rfl

/-- Every other poll finds the run busy and leaves the values alone. -/
theorem poll_of_busy {left : Option Nat}
    (hrun : (c.engines.get b).run = some ⟨submodule, result, left⟩) (hleft : left ≠ some 0) :
    (Dc.busy b).isSet (c.poll b).1 = true ∧
      ((c.poll b).2.engines.get b).run = some ⟨submodule, result, left.map (· - 1)⟩ ∧
      (c.poll b).2.corrections = c.corrections := by
  have hpoll : (c.engines.get b).poll =
      (true, { c.engines.get b with run := some ⟨submodule, result, left.map (· - 1)⟩ }) := by
    rcases left with _ | _ | left
    · simp only [Engine.poll, hrun]
      show _ = (true, Engine.mk (c.engines.get b).values (some ⟨submodule, result, none⟩))
      rw [← hrun]
    · exact (hleft rfl).elim
    · simp only [Engine.poll, hrun]
      rfl
  refine ⟨(BitField.isSet_put _ _ _).trans (congrArg Prod.fst hpoll), ?_, ?_⟩
  · simp only [poll, hpoll, Engines.get_set, if_true]
  · simp only [poll, hpoll]
    exact corrections_keepEngine c b fun _ => rfl

/-- A run that ends within the budget is waited for, with a pause after every busy poll. -/
theorem run_awaitDone_of_lt {budget left : Nat} (hc : c.Poised b polls)
    (hrun : (c.engines.get b).run = some ⟨submodule, result, some left⟩) (hleft : left < budget)
    (count : Nat) (pauses : List Nat) :
    let o := (awaitDone b budget).run transport c
    o.result = .ok true ∧ o.state.Poised b polls ∧ o.state.registers = c.registers ∧
      o.state.ledger (o.events.foldl (Event.tally b) (count :: pauses)) =
        ⟨c.corrections.set b submodule result, c.results, c.starts, (count + left) :: pauses⟩ := by
  -- the chip is generalized with the polls that are left, and the pauses with their count
  induction budget generalizing c left count with
  | zero => omega
  | succ budget ih =>
    intro o
    have ho : o = _ := run_bind_of_eq _ _ (run_readByte_busy hc.obeys b)
    cases left with
    | zero =>
      obtain ⟨hdone, hheld⟩ := poll_of_last hrun
      rw [hdone] at ho
      rw [ho]
      exact ⟨rfl, hc.poll, rfl, congrArg (Ledger.mk · _ _ _) hheld⟩
    | succ left =>
      obtain ⟨hbusy, hrun', hheld⟩ := poll_of_busy hrun (by simp)
      replace hrun' : ((c.poll b).2.engines.get b).run = some ⟨submodule, result, some left⟩ :=
        hrun'
      obtain ⟨hresult, hpoised, hregisters, hledger⟩ :=
        ih hc.poll hrun' (by omega) (count + 1)
      rw [hbusy] at ho
      rw [ho]
      refine ⟨hresult, hpoised, hregisters, hledger.trans ?_⟩
      rw [hheld, show count + 1 + left = count + (left + 1) by omega]
      rfl

/-- A run that stays busy for longer is given up, with a pause after every poll of the budget. -/
theorem run_awaitDone_of_le {budget : Nat} {left : Option Nat} (hc : c.Poised b polls)
    (hrun : (c.engines.get b).run = some ⟨submodule, result, left⟩)
    (hleft : ∀ n ∈ left, budget ≤ n) (count : Nat) (pauses : List Nat) :
    let o := (awaitDone b budget).run transport c
    o.result = .ok false ∧ o.state.Poised b polls ∧
      o.state.ledger (o.events.foldl (Event.tally b) (count :: pauses)) =
        ⟨c.corrections, c.results, c.starts, (count + budget) :: pauses⟩ := by
  induction budget generalizing c left count with
  | zero => exact ⟨rfl, hc, rfl⟩
  | succ budget ih =>
    intro o
    have ho : o = _ := run_bind_of_eq _ _ (run_readByte_busy hc.obeys b)
    have hbusy : left ≠ some 0 := by
      rintro rfl
      have := hleft 0 rfl
      omega
    obtain ⟨hbusy, hrun', hheld⟩ := poll_of_busy hrun hbusy
    have hleft' : ∀ n ∈ left.map (· - 1), budget ≤ n := by
      intro n hn
      obtain ⟨m, hm, rfl⟩ := Option.map_eq_some_iff.1 hn
      have := hleft m hm
      omega
    obtain ⟨hresult, hpoised, hledger⟩ := ih hc.poll hrun' hleft' (count + 1)
    rw [hbusy] at ho
    rw [ho]
    refine ⟨hresult, hpoised, hledger.trans ?_⟩
    rw [hheld, show count + 1 + budget = count + (budget + 1) by omega]
    rfl

end Chip

namespace Calibration

open Chip

variable {b : Block} {polls : Option Nat}

/-- A loop whose run ends within the budget enters the result that was next. -/
theorem books_settle_of_lt {n : Nat} (hn : n < pollBudget) (submodule : Nat) (count : BitVec 6)
    (ledger : Ledger) :
    (settle b submodule count).Books b (some n) ledger (.ok (some (upcoming ledger.results)))
      (ledger.after (ledger.corrections.set b (BitVec.ofNat 3 submodule) (upcoming ledger.results))
        1 n) := by
  rw [settle_eq]
  apply (books_log _).bind
  rintro c pauses hpoised rfl
  obtain ⟨hlaunched, hc₁, haddressed, hrun, hledger₁⟩ := run_launch hpoised submodule count pauses
  obtain ⟨hdone, hc₂, hregisters, hledger₂⟩ := run_awaitDone_of_lt hc₁ hrun hn 0 pauses
  simp only [Chip.ledger, Ledger.mk.injEq] at hledger₁ hledger₂
  obtain ⟨hheld₁, hresults₁, hstarts₁, hpauses₁⟩ := hledger₁
  obtain ⟨hheld₂, hresults₂, hstarts₂, hpauses₂⟩ := hledger₂
  rw [hheld₁, Corrections.set_set] at hheld₂
  -- the value register shows the value of the submodule that has been addressed
  have hload := run_load_value hc₂.obeys b
  rw [hregisters, haddressed, hheld₂, Corrections.set_self] at hload
  rw [run_bind_of_ok _ _ hlaunched, awaitValue, run_bind_of_ok _ _ hdone]
  simp only [if_true]
  rw [run_bind_of_eq _ _ hload]
  refine ⟨rfl, hc₂, ?_⟩
  simp only [run_bind, run_log, run_pure, List.foldl_append, hpauses₁, hpauses₂]
  simp only [Chip.ledger, Ledger.after, hheld₂, hresults₂, hresults₁, hstarts₂, hstarts₁,
    List.drop_one, Nat.zero_add]
  rfl

/-- A loop whose run stays busy for longer leaves the count that it has loaded. -/
theorem books_settle_of_le (hpolls : ∀ n ∈ polls, pollBudget ≤ n) (submodule : Nat)
    (count : BitVec 6) (ledger : Ledger) :
    (settle b submodule count).Books b polls ledger (.ok none)
      (ledger.after (ledger.corrections.set b (BitVec.ofNat 3 submodule) count) 1 pollBudget) := by
  rw [settle_eq]
  apply (books_log _).bind
  rintro c pauses hpoised rfl
  obtain ⟨hlaunched, hc₁, -, hrun, hledger₁⟩ := run_launch hpoised submodule count pauses
  obtain ⟨hdone, hc₂, hledger₂⟩ := run_awaitDone_of_le hc₁ hrun hpolls 0 pauses
  simp only [Chip.ledger, Ledger.mk.injEq] at hledger₁ hledger₂
  obtain ⟨hheld₁, hresults₁, hstarts₁, hpauses₁⟩ := hledger₁
  obtain ⟨hheld₂, hresults₂, hstarts₂, hpauses₂⟩ := hledger₂
  rw [run_bind_of_ok _ _ hlaunched, awaitValue, run_bind_of_ok _ _ hdone]
  simp only [Bool.false_eq_true, if_false]
  refine ⟨rfl, hc₂, ?_⟩
  simp only [run_bind, run_log, run_pure, List.foldl_append, hpauses₁, hpauses₂]
  simp only [Chip.ledger, Ledger.after, hheld₂, hheld₁, hresults₂, hresults₁, hstarts₂, hstarts₁,
    List.drop_one, Nat.zero_add]
  rfl

end Calibration

end Transceiver
