import Transceiver.Proofs.CalibrationLedger
import Transceiver.Proofs.CalibrationSettings

/-!
# The outcome of a calibration

On a simulated chip that refuses no access, a calibration comes out as its polls and its results
have it. If runs end within the budget of polls, every submodule takes the next result that is in
store, and one more if that is suspect. If they do not, every attempt ends in the loop of the first
submodule, which is left at the count that the loop has loaded.
-/

namespace Transceiver.Calibration

open Procedure Register Chip

/-! ## Results that are drawn -/

/-- What a submodule draws: its final value, and how many results that takes. A suspect result is
drawn once more, and the second one is final. -/
def draw (results : List Byte) : BitVec 6 × Nat :=
  if upcoming results = suspectValue then (upcoming results.tail, 2) else (upcoming results, 1)

/-- What some submodules come to. -/
structure Drawn where
  finals : List (BitVec 6)
  /-- How many results have been taken. -/
  taken : Nat
deriving Repr, DecidableEq

/-- What some submodules draw one after the other. -/
def draws : (submodules : Nat) → List Byte → Drawn
  | 0, _ => ⟨[], 0⟩
  | submodules + 1, results =>
    let rest := draws submodules (results.drop (draw results).2)
    ⟨(draw results).1 :: rest.finals, (draw results).2 + rest.taken⟩

/-- The corrections with values for the submodules of a block from `first` on. -/
def Corrections.fill (held : Corrections) (b : Block) (first : Nat) (values : List (BitVec 6)) :
    Corrections :=
  fun b' submodule =>
    if b = b' ∧ first ≤ submodule.toNat then
      (values[submodule.toNat - first]?).getD (held b' submodule)
    else held b' submodule

theorem Corrections.fill_nil (held : Corrections) (b : Block) (first : Nat) :
    held.fill b first [] = held := by
  funext b' submodule
  simp [fill]

/-- Filling goes on after the first submodule. -/
theorem Corrections.fill_cons (held : Corrections) (b : Block) {first : Nat} (hfirst : first < 8)
    (value : BitVec 6) (rest : List (BitVec 6)) :
    (held.set b (BitVec.ofNat 3 first) value).fill b (first + 1) rest =
      held.fill b first (value :: rest) := by
  funext b' submodule
  have hplace : BitVec.ofNat 3 first = submodule ↔ first = submodule.toNat := by
    rw [← BitVec.toNat_inj, BitVec.toNat_ofNat, Nat.mod_eq_of_lt hfirst]
  simp only [fill, set, hplace]
  by_cases hb : b = b'
  · rcases Nat.lt_trichotomy first submodule.toNat with hlt | heq | hgt
    · have hindex : submodule.toNat - first = submodule.toNat - (first + 1) + 1 := by omega
      have hne : first ≠ submodule.toNat := by omega
      have hle : first ≤ submodule.toNat := by omega
      have hle' : first + 1 ≤ submodule.toNat := by omega
      simp [hb, hne, hle, hle', hindex]
    · simp [hb, heq]
    · have hne : first ≠ submodule.toNat := by omega
      have hle : ¬ first ≤ submodule.toNat := by omega
      have hle' : ¬ first + 1 ≤ submodule.toNat := by omega
      simp [hne, hle, hle']
  · simp [hb]

/-! ## Asides of a calibration -/

section Asides

/-- The set-up is in plain memory, and so are the DC levels of the filters. -/
theorem memory_of_setUp : ∀ address ∈ setUpRegisters, Site.at address = .memory := by
  decide

/-- The DC levels of the filters are plain memory. -/
theorem memory_of_dcLevel (h : Half) : Site.at (Lpf.dcLevel h).address = .memory := by
  cases h <;> rfl

theorem aside_read : ∀ a ∈ setUpRegisters, ∀ answer, (Event.read a answer).Aside :=
  fun a ha _ => memory_of_setUp a ha

theorem aside_write :
    ∀ a ∈ setUpRegisters, ∀ value accepted, (Event.write a value accepted).Aside :=
  fun a ha _ _ => memory_of_setUp a ha

variable {b : Block} {polls : Option Nat} {ledger ledger' : Ledger} {n : Nat}

/-- Routing the stages is nothing to the engine. -/
theorem aside_routeStages (b : Block) (submodule : Nat) :
    (routeStages b submodule).Emits Event.Aside :=
  emits_routeStages aside_read aside_write b submodule

/-- Nor is the use of a value. -/
theorem aside_adopt (b : Block) (value : BitVec 6) : (adopt b value).Emits Event.Aside :=
  emits_adopt (fun h _ => memory_of_dcLevel h) (fun h _ _ => memory_of_dcLevel h) b value

theorem aside_adoptSecond (b : Block) (value : BitVec 6) :
    (adoptSecond b value).Emits Event.Aside :=
  emits_adoptSecond (E := Event.Aside) (fun h _ => memory_of_dcLevel h)
    (fun h _ _ => memory_of_dcLevel h) rfl b value

theorem allows_all (b : Block) : b.Allows fun _ _ => True :=
  .of_all fun _ _ => trivial

/-! ## Runs that end within the budget -/

theorem submodules_pos (b : Block) : 0 < b.submodules := by
  cases b <;> decide

theorem submodules_le (b : Block) : b.submodules ≤ 8 := by
  cases b <;> decide

/-- A submodule draws its value. -/
theorem books_calibrateSubmodule_of_lt (hn : n < pollBudget) {submodule : Nat}
    (hlt : submodule < b.submodules) (ledger : Ledger) :
    (calibrateSubmodule b submodule).Books b (some n) ledger (.ok true)
      (ledger.after (ledger.corrections.set b (BitVec.ofNat 3 submodule) (draw ledger.results).1)
        (draw ledger.results).2 n) := by
  apply books_aside_bind (aside_routeStages b submodule) (careful_routeStages (allows_all b) hlt)
  intro _
  apply (books_settle_of_lt hn submodule startCount ledger).bind
  dsimp only
  -- a suspect result draws a second one, which is final
  by_cases hsuspect : upcoming ledger.results = suspectValue
  · rw [if_pos hsuspect, draw, if_pos hsuspect]
    apply (books_log _).bind
    apply (books_settle_of_lt hn submodule 0 _).bind
    apply books_aside_bind (aside_adoptSecond b _) (careful_adoptSecond (allows_all b) _)
    intro _
    simp only [Ledger.after_after, Ledger.corrections_after, Ledger.results_after,
      Corrections.set_set, List.drop_one]
    exact books_pure true
  · rw [if_neg hsuspect, draw, if_neg hsuspect]
    apply books_aside_bind (aside_adopt b _) (careful_adopt (allows_all b) _)
    intro _
    exact books_pure true

/-- Submodules draw their values in order. -/
theorem books_calibrateAll_of_lt (hn : n < pollBudget) (first submodules : Nat)
    (hrange : first + submodules ≤ b.submodules) (ledger : Ledger) :
    (calibrateAll b (List.range' first submodules)).Books b (some n) ledger (.ok true)
      (ledger.after (ledger.corrections.fill b first (draws submodules ledger.results).finals)
        (draws submodules ledger.results).taken n) := by
  -- the first submodule moves on with the ledger
  induction submodules generalizing first ledger with
  | zero =>
    have hnothing : ledger.after ledger.corrections 0 n = ledger := rfl
    simp only [draws, Corrections.fill_nil, hnothing]
    exact books_pure true
  | succ submodules ih =>
    have hlt : first < b.submodules := by omega
    apply (books_calibrateSubmodule_of_lt hn hlt ledger).bind
    have hrest := ih (first + 1) (by omega) (ledger.after
      (ledger.corrections.set b (BitVec.ofNat 3 first) (draw ledger.results).1)
      (draw ledger.results).2 n)
    rw [Ledger.after_after, Ledger.corrections_after, Ledger.results_after,
      Corrections.fill_cons _ _ (Nat.lt_of_lt_of_le hlt (submodules_le b))] at hrest
    exact hrest

/-- One attempt is enough. -/
theorem books_converge_of_lt (hn : n < pollBudget) (gains : Gains) (ledger : Ledger) :
    (converge b gains).Books b (some n) ledger (.ok ())
      (ledger.after (ledger.corrections.fill b 0 (draws b.submodules ledger.results).finals)
        (draws b.submodules ledger.results).taken n) := by
  have hattempt := books_calibrateAll_of_lt (b := b) hn 0 b.submodules (by simp) ledger
  rw [← List.range_eq_range'] at hattempt
  rw [converge]
  exact hattempt.bind (books_pure ())

/-! ## Runs that stay busy for longer -/

/-- An attempt ends in the loop of the first submodule. -/
theorem books_attemptBlock_of_le (hpolls : ∀ n ∈ polls, pollBudget ≤ n) (ledger : Ledger) :
    (attemptBlock b).Books b polls ledger (.ok false)
      (ledger.after (ledger.corrections.set b 0 startCount) 1 pollBudget) := by
  have hfirst : (calibrateSubmodule b 0).Books b polls ledger (.ok false)
      (ledger.after (ledger.corrections.set b 0 startCount) 1 pollBudget) := by
    apply books_aside_bind (aside_routeStages b 0)
      (careful_routeStages (allows_all b) (submodules_pos b))
    intro _
    exact (books_settle_of_le hpolls 0 startCount ledger).bind (books_pure false)
  rw [attemptBlock, List.range_eq_range']
  obtain ⟨more, hmore⟩ := Nat.exists_eq_succ_of_ne_zero (submodules_pos b).ne'
  rw [hmore]
  exact hfirst.bind (books_pure false)

/-- All attempts that are left are made, and each leaves the first submodule at the starting
count. -/
theorem books_converge_of_le (hpolls : ∀ n ∈ polls, pollBudget ≤ n) {gains : Gains} {k : Nat}
    (hgains : gains = .ofAttempt k) (hk : k < b.attemptBudget) (ledger : Ledger) :
    (converge b gains).Books b polls ledger (.error .unexpectedState)
      (ledger.after (ledger.corrections.set b 0 startCount) (b.attemptBudget - k) pollBudget) := by
  induction gains using b.adjustment_induction generalizing k ledger with
  | step gains ih =>
    cases hadjust : b.adjustment? gains with
    | none =>
      have hlast : b.attemptBudget - k = 1 := by
        have hused := adjustment?_eq_none_iff.1 (hgains ▸ hadjust)
        omega
      rw [converge_of_none hadjust, hlast]
      apply (books_attemptBlock_of_le hpolls ledger).bind
      apply (books_log _).bind
      apply (books_log _).bind
      exact books_fail _
    | some a =>
      have hrung : b.adjustment? (.ofAttempt k) = some a := hgains ▸ hadjust
      have hnext : k + 1 < b.attemptBudget := (adjustment?_ofAttempt hrung).1
      have hset : (Gain.setDb a.stage a.gain).Emits Event.Aside :=
        emits_setDb aside_write (fun _ _ => rfl) (Block.adjusted_stage hadjust) a.gain
      have hcareful : (Gain.setDb a.stage a.gain).Careful (fun _ _ => True) fun _ => False :=
        Gain.careful_setDb (fun _ => trivial) a.gain
      rw [converge_of_some hadjust]
      apply (books_attemptBlock_of_le hpolls ledger).bind
      apply (books_log _).bind
      apply books_aside_bind hset hcareful
      intro _
      have hlater := ih a hadjust (adjusted_gains hrung) hnext
        (ledger.after (ledger.corrections.set b 0 startCount) 1 pollBudget)
      -- this attempt and those after it
      have hsum : 1 + (b.attemptBudget - (k + 1)) = b.attemptBudget - k := by omega
      rw [Ledger.after_after, Ledger.corrections_after, Corrections.set_set, hsum] at hlater
      exact hlater

/-! ## Around the attempts -/

/-- The set-up and the clean-up leave the ledger and the result as they are. -/
theorem books_forced {backup : Backup} {result : Except Fault Unit}
    (hgain : ∀ found, backup.frontEnd = some found → found.lnaGain ≠ .unknown)
    (h : (converge b .highest).Books b polls ledger result ledger') :
    (forceAll (setUpAndConverge b backup :: cleanUp b backup)).Books b polls ledger result
      ledger' := by
  have hnote (stage : DbStage) (gain : Int) : (Event.note (.clampedGain stage gain)).Aside := rfl
  have hsetUp : (setUpAndConverge b backup).Books b polls ledger result ledger' :=
    books_aside_bind (emits_setUp aside_read aside_write hnote b backup)
      (careful_setUp (allows_all b) backup) fun _ => h
  have hforced (steps : List (Procedure Unit)) (haside : ∀ p ∈ steps, p.Emits Event.Aside)
      (hcareful : ∀ p ∈ steps, p.Careful (fun _ _ => True) fun _ => False) :
      (forceAll steps).Books b polls ledger' (.ok ()) ledger' := by
    induction steps with
    | nil => exact books_pure ()
    | cons p rest ih =>
      rw [List.forall_mem_cons] at haside hcareful
      exact (books_aside haside.1 hcareful.1).forceAll_cons (ih haside.2 hcareful.2)
  have hcleanUp := hforced (cleanUp b backup) (emits_cleanUp aside_read aside_write hnote b backup)
    (careful_cleanUp (allows_all b) hgain)
  have hresult : (result *> .ok ()) = result := by cases result <;> rfl
  exact hresult ▸ hsetUp.forceAll_cons hcleanUp

/-- Where nothing is refused the backup is taken, if the gain of the LNA is a setting. -/
theorem takeBackup_ok {c : Chip} (hc : c.Obeys none) (hgain : ¬ GainUnknown b c.registers) :
    ((takeBackup b).run transport c).result = .ok (Backup.of b c.registers) := by
  rw [← (run_bus_open (takeBackup b) (0, c)).1]
  cases atomic_takeBackup (fun _ => false) b (0, c) with
  | refused refusal _ _ =>
    obtain ⟨e, he, hrefused⟩ := refusal
    simp [(accepted_of_obeys (s := (0, c)) hc (takeBackup b)).1 e he] at hrefused
  | accepted _ result _ => rwa [if_neg hgain] at result

/-- Taking the backup leaves the engine alone. -/
theorem aside_takeBackup (b : Block) : (takeBackup b).Emits Event.Aside :=
  emits_takeBackup aside_read b

/-- A calibration comes to what its attempts come to. -/
theorem run_calibrate_of_books {c : Chip} (hc : c.Poised b polls)
    (hgain : ¬ GainUnknown b c.registers) {result : Except Fault Unit}
    (h : (converge b .highest).Books b polls (c.ledger [0]) result ledger') :
    let o := (calibrate b).run transport c
    o.result = result ∧ o.state.ledger (pausesPerStart b o.events) = ledger' := by
  have hbackup := takeBackup_ok hc.obeys hgain
  obtain ⟨hbacked, hledger, -⟩ := run_aside (aside_takeBackup b) hc [0]
  have hknown (found : FrontEnd) (hfound : (Backup.of b c.registers).frontEnd = some found) :
      found.lnaGain ≠ .unknown :=
    lnaGain_ne_unknown (canReturn_of_run transport hbackup) hfound
  obtain ⟨hresult, -, hfinal⟩ := books_forced hknown h _ _ hbacked hledger
  rw [run_calibrate, run_bind_of_ok _ _ hbackup]
  dsimp only
  rw [pausesPerStart, List.foldl_append]
  exact ⟨hresult, hfinal⟩

end Asides

/-! ## The outcome -/

/-- There is a value for every submodule. -/
theorem length_finals (submodules : Nat) (results : List Byte) :
    (draws submodules results).finals.length = submodules := by
  induction submodules generalizing results with
  | zero => rfl
  | succ submodules ih => simp [draws, ih]

/-- With a value drawn for every submodule, the slots of the block show these values. -/
theorem values_fill (held : Corrections) (b : Block) {finals : List (BitVec 6)}
    (hlength : finals.length = b.submodules) :
    (held.fill b 0 finals).values = fun slot =>
      if slot.block = b then finals[slot.submodule.toNat]?.map (·.setWidth 8)
      else held.values slot := by
  funext slot
  by_cases hb : slot.block = b
  · have hlt : slot.submodule.toNat < finals.length := by
      rw [hlength, ← hb]
      exact slot.submodule_lt
    simp [Corrections.values, Corrections.fill, hb, hlt]
  · simp [Corrections.values, Corrections.fill, hb, Ne.symm hb]

/-- With one value set, the slot with that place shows it. -/
theorem values_setFirst (held : Corrections) (b : Block) (value : BitVec 6) :
    (held.set b 0 value).values = fun slot =>
      if slot.block = b ∧ slot.submodule = 0 then some (value.setWidth 8)
      else held.values slot := by
  funext slot
  simp only [Corrections.values, Corrections.set, eq_comm (a := b), eq_comm (a := (0 : BitVec 3))]
  split <;> rfl

/-- The outcome of a calibration on the simulated chip. If runs are busy for at most 24 polls, it
ends well, and every submodule of the block has the value that it has drawn. If they are busy for
longer or for ever, all attempts of the block are made and fail, each with one start and 25 pauses,
and submodule 0 is left at the count that every loop has loaded. Either way no other value is
changed. -/
theorem calibrate_outcome (b : Block) (c : Chip) (hread : c.failRead = none)
    (hwrite : c.failWrite = none) (hload : c.registers.flag (Dc.load b) = false)
    (hstart : c.registers.flag (Dc.start b) = false) (hgain : ¬ GainUnknown b c.registers) :
    let o := (calibrate b).run transport c
    let drawn := draws b.submodules c.results
    ∃ before, c.shows readValues = .ok before ∧
      (∀ n ≤ 24, c.busyPolls = some n →
        o.result = .ok () ∧
        o.state.starts = c.starts + drawn.taken ∧
        o.state.results = c.results.drop drawn.taken ∧
        pausesPerStart b o.events = List.replicate drawn.taken n ++ [0] ∧
        o.state.shows readValues = .ok fun slot =>
          if slot.block = b then drawn.finals[slot.submodule.toNat]?.map (·.setWidth 8)
          else before slot) ∧
      ((∀ n ∈ c.busyPolls, 25 ≤ n) →
        o.result = .error .unexpectedState ∧
        o.state.starts = c.starts + b.attemptBudget ∧
        o.state.results = c.results.drop b.attemptBudget ∧
        pausesPerStart b o.events = List.replicate b.attemptBudget 25 ++ [0] ∧
        o.state.shows readValues = .ok fun slot =>
          if slot.block = b ∧ slot.submodule = 0 then some 31 else before slot) := by
  intro o drawn
  -- neither strobe is set, so that every START of the calibration starts one run
  have hc : c.Poised b c.busyPolls :=
    ⟨⟨hread, hwrite, fun _ hw => nomatch hw⟩, ⟨hload, hstart⟩, rfl⟩
  refine ⟨_, shows_readValues c, fun n hn hpolls => ?_, fun hpolls => ?_⟩
  · rw [hpolls] at hc
    have hbooks := books_converge_of_lt (b := b) (n := n) (show n < pollBudget by
      unfold pollBudget
      omega) .highest (c.ledger [0])
    obtain ⟨hresult, hledger⟩ := run_calibrate_of_books hc hgain hbooks
    simp only [Chip.ledger, Ledger.after, Ledger.mk.injEq] at hledger
    obtain ⟨hheld, hresults, hstarts, hpauses⟩ := hledger
    refine ⟨hresult, hstarts, hresults, hpauses, ?_⟩
    rw [shows_readValues, hheld, values_fill _ _ (length_finals _ _)]
  · have hbooks := books_converge_of_le hpolls highest_eq b.attemptBudget_pos (c.ledger [0])
    obtain ⟨hresult, hledger⟩ := run_calibrate_of_books hc hgain hbooks
    simp only [Chip.ledger, Ledger.after, Ledger.mk.injEq] at hledger
    obtain ⟨hheld, hresults, hstarts, hpauses⟩ := hledger
    refine ⟨hresult, hstarts, hresults, hpauses, ?_⟩
    rw [shows_readValues, hheld, values_setFirst]
    rfl

/-- A suspect result at the budget's end: the DC reference of RXVGA2 takes a second one, and the
results run out after the next submodule. -/
theorem calibrate_outcome_suspect :
    let c := { initial with busyPolls := some 24, results := [31, 5, 40] : Chip }
    let o := (calibrate .rxvga2).run transport c
    o.result = .ok () ∧ o.state.starts = 6 ∧
      pausesPerStart .rxvga2 o.events = [24, 24, 24, 24, 24, 24, 0] ∧
      ∃ values, o.state.shows readValues = .ok values ∧
        Slot.all.map values = [17, 17, 17, 17, 17, 5, 40, 17, 17, 17].map some := by
  intro c o
  obtain ⟨before, hbefore, hok, -⟩ :=
    calibrate_outcome .rxvga2 c rfl rfl (by decide) (by decide) (by decide)
  obtain ⟨hresult, hstarts, -, hpauses, hshown⟩ := hok 24 (Nat.le_refl 24) rfl
  obtain rfl := Except.ok.inj ((shows_readValues c).symm.trans hbefore)
  exact ⟨hresult, hstarts, hpauses, _, hshown, by decide⟩

end Transceiver.Calibration
