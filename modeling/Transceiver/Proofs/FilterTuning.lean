import Transceiver.Proofs.CalibrationOutcome

/-!
# The filter tuning reaches both filters

The tuning of the filters is calibrated to be used: its value goes into the DC level of the transmit
filter and of the receive filter. The calibration of a submodule ends well in three ways. The first
result is not suspect and is adopted, or a second one is taken, and that is adopted unless it is
zero. A zero is kept in the block, the journal notes it, and the filters keep their levels.

Around the loops a calibration has nothing to do with the levels, and it moves none of the values.
-/

namespace Transceiver

open Procedure Register

/-! ## Events without regard to the levels -/

/-- Neither an access to the DC level of a filter nor the note that a zero is kept. -/
def Event.SparesLevels : Event → Prop
  | .read address _ | .write address _ _ => ∀ h, address ≠ (Lpf.dcLevel h).address
  | .note entry => entry ≠ .keptBadValue
  | .pause _ => True

/-- What a calibration does around its loops. -/
def Event.Outlying (e : Event) : Prop :=
  e.Aside ∧ e.SparesLevels

namespace Calibration

open Chip

variable {α : Type} {c c₁ c₂ : Chip} {events events₁ events₂ : List Event}

/-- The chip still refuses nothing, the levels are as before, and no zero has been kept. -/
structure LevelsSpared (c c' : Chip) (events : List Event) : Prop where
  obeys : c'.Obeys none
  levels : ∀ h, c'.registers.get (Lpf.dcLevel h).address = c.registers.get (Lpf.dcLevel h).address
  quiet : .note .keptBadValue ∉ events

/-- What spares the levels first and spares them again spares them in all. -/
theorem LevelsSpared.trans (h : LevelsSpared c c₁ events₁) (h' : LevelsSpared c₁ c₂ events₂) :
    LevelsSpared c c₂ (events₁ ++ events₂) where
  obeys := h'.obeys
  levels half := (h'.levels half).trans (h.levels half)
  quiet hmem := (List.mem_append.1 hmem).elim h.quiet h'.quiet

/-- A procedure without an access to the levels leaves them as they are. -/
theorem levelsSpared_of_emits {p : Procedure α} (hp : p.Emits Event.SparesLevels)
    (hc : c.Obeys none) :
    let o := p.run transport c
    LevelsSpared c o.state o.events := by
  intro o
  have hwrites : p.WritesOnly fun address _ => ∀ h, address ≠ (Lpf.dcLevel h).address :=
    hp.writesOnly fun _ _ _ he => he
  obtain ⟨hobeys, hkept⟩ := wp_run hc (wp_of_writesOnly hwrites c.registers)
  exact ⟨hobeys, fun h => hkept _ fun _ hne => hne h rfl, fun hmem => hp.run transport c _ hmem rfl⟩

/-- What is outlying moves nothing of the chip but other registers than the levels and the control
registers. -/
structure Bystood (c c' : Chip) (events : List Event) : Prop extends LevelsSpared c c' events where
  corrections : c'.corrections = c.corrections
  results : c'.results = c.results
  poised : ∀ {b polls}, c.Poised b polls → c'.Poised b polls

theorem Bystood.trans (h : Bystood c c₁ events₁) (h' : Bystood c₁ c₂ events₂) :
    Bystood c c₂ (events₁ ++ events₂) where
  toLevelsSpared := h.toLevelsSpared.trans h'.toLevelsSpared
  corrections := h'.corrections.trans h.corrections
  results := h'.results.trans h.results
  poised hc := h'.poised (h.poised hc)

/-- What is outlying draws no result and starts no engine, so the chip is as ready for a loop as
before. -/
theorem bystood_of_emits {p : Procedure α} (hp : p.Emits Event.Outlying) (hc : c.Obeys none) :
    let o := p.run transport c
    Bystood c o.state o.events := by
  intro o
  have haside : p.Emits Event.Aside := hp.mono fun _ he => he.1
  have hstate : o.state = _ := (state_of_aside haside hc).1
  have hspared := levelsSpared_of_emits (hp.mono fun _ he => he.2) hc
  refine ⟨hspared, ?_, ?_, fun hpoised => (run_aside haside hpoised []).1⟩
  · rw [hstate]
    rfl
  · rw [hstate]

/-! ## Parts of a calibration -/

/-- Nothing that a calibration sets up is a level. -/
theorem setUp_ne_dcLevel : ∀ address ∈ setUpRegisters, ∀ h, address ≠ (Lpf.dcLevel h).address := by
  intro address haddress h
  revert address
  cases h <;> decide

theorem outlying_read : ∀ a ∈ setUpRegisters, ∀ answer, (Event.read a answer).Outlying :=
  fun a ha answer => ⟨aside_read a ha answer, setUp_ne_dcLevel a ha⟩

theorem outlying_write :
    ∀ a ∈ setUpRegisters, ∀ value accepted, (Event.write a value accepted).Outlying :=
  fun a ha value accepted => ⟨aside_write a ha value accepted, setUp_ne_dcLevel a ha⟩

/-- The note of a clamped gain is outlying. -/
theorem outlying_clampedGain (stage : DbStage) (gain : Int) :
    (Event.note (.clampedGain stage gain)).Outlying :=
  ⟨rfl, nofun⟩

/-- The loop of the filter tuning leaves the levels alone. -/
theorem spares_tuning (count : BitVec 6) :
    (settle .lpfTuning 0 count).Emits Event.SparesLevels := by
  have hne : ∀ address ∈ Block.lpfTuning.ports, ∀ h, address ≠ (Lpf.dcLevel h).address := by
    intro address haddress h
    revert address
    cases h <;> decide
  rw [settle_eq]
  refine (emits_log nofun).bind fun _ => Emits.bind ?_ fun _ => ?_
  · exact emits_launch (fun _ => hne _ (by decide)) (fun _ _ => hne _ (by decide))
      (fun _ _ => hne _ (by decide)) 0 count
  · exact emits_awaitValue (fun _ => hne _ (by decide)) (fun _ => hne _ (by decide))
      (fun _ => trivial) (fun _ => nofun) nofun

/-! ## The value that a loop returns -/

/-- A launch leaves its submodule addressed. -/
theorem field_launch (hc : c.Obeys none) (b : Block) (submodule : Nat) (count : BitVec 6) :
    let o := (launch b submodule count).run transport c
    o.state.Obeys none ∧ o.state.registers.field (Dc.submodule b) = BitVec.ofNat 3 submodule := by
  have hload : (Dc.load b).address = (Dc.submodule b).address := rfl
  have hstart : (Dc.start b).address = (Dc.submodule b).address := rfl
  have hplace : (launch b submodule count).wp none
      (fun _ r => r.field (Dc.submodule b) = BitVec.ofNat 3 submodule) c.registers := by
    simp only [launch, wp_bind, wp_readByte (stored_control b), between_ok, wp_writeByte, hload,
      hstart, RegisterFile.field, RegisterFile.get_set_self, get_submodule_put_start,
      get_submodule_put_load, BitField.get_set_self]
  exact wp_run hc hplace

/-- The wait returns what the addressed submodule then holds. -/
theorem held_of_awaitValue (hc : c.Obeys none) {b : Block} {value : BitVec 6} :
    let o := (awaitValue b).run transport c
    o.result = .ok (some value) →
      o.state.corrections b (c.registers.field (Dc.submodule b)) = value := by
  intro o hok
  have hreads : (awaitDone b pollBudget).Careful (fun _ _ => False) fun _ => False :=
    careful_awaitDone b pollBudget
  obtain ⟨hobeys, hkept⟩ := wp_run hc (wp_of_writesOnly hreads.writesOnly c.registers)
  obtain ⟨finished, hfinished, hrest, -⟩ := run_bind_ok transport hok
  have ho : o = _ := run_bind_of_ok transport _ hfinished
  cases finished with
  | false => cases hrest
  | true =>
    have hload := run_load_value hobeys b
    rw [RegisterFile.field, hkept _ fun _ => id] at hload
    simp only [if_true, run_bind_of_eq transport _ hload] at ho hrest
    rw [ho]
    cases hrest
    rfl

/-- A loop that ends returns what its submodule then holds. -/
theorem held_of_settle (hc : c.Obeys none) {b : Block} {submodule : Nat} {count value : BitVec 6} :
    let o := (settle b submodule count).run transport c
    o.result = .ok (some value) →
      o.state.corrections b (BitVec.ofNat 3 submodule) = value := by
  rw [settle_eq]
  intro o hok
  obtain ⟨hlaunched, hplace⟩ := field_launch hc b submodule count
  obtain ⟨_, hfirst, hrest, -⟩ := run_bind_ok transport (p := launch b submodule count) hok
  have hheld := held_of_awaitValue hlaunched hrest
  show ((launch b submodule count >>= fun _ => awaitValue b).run transport c).state.corrections b
    (BitVec.ofNat 3 submodule) = value
  rw [run_bind_of_ok transport _ hfirst, ← hplace]
  exact hheld

/-! ## The submodule -/

/-- What becomes of the levels: they are set to the value that the block then holds, or the value is
a zero that is kept in the block only. -/
inductive Tuned (c c' : Chip) (events : List Event) : Prop where
  | adopted (quiet : .note .keptBadValue ∉ events)
    (levels : ∀ h, c'.registers.get (Lpf.dcLevel h).address =
      (Lpf.dcLevel h).set (c.registers.get (Lpf.dcLevel h).address) (c'.corrections .lpfTuning 0))
  | kept (noted : .note .keptBadValue ∈ events) (zero : c'.corrections .lpfTuning 0 = 0)
    (levels : ∀ h, c'.registers.get (Lpf.dcLevel h).address =
      c.registers.get (Lpf.dcLevel h).address)

/-- Nothing is lost by what leaves the levels alone before. -/
theorem LevelsSpared.tuned (h : LevelsSpared c c₁ events₁) (htuned : Tuned c₁ c₂ events₂) :
    Tuned c c₂ (events₁ ++ events₂) := by
  cases htuned with
  | adopted quiet levels =>
    refine .adopted (fun hmem => (List.mem_append.1 hmem).elim h.quiet quiet) fun half => ?_
    rw [levels, h.levels]
  | kept noted zero levels =>
    exact .kept (List.mem_append_right _ noted) zero fun half => (levels half).trans (h.levels half)

/-- Nothing is lost by what leaves the levels and the values alone after. -/
theorem Tuned.bystood (htuned : Tuned c c₁ events₁) (h : Bystood c₁ c₂ events₂) :
    Tuned c c₂ (events₁ ++ events₂) := by
  cases htuned with
  | adopted quiet levels =>
    refine .adopted (fun hmem => (List.mem_append.1 hmem).elim quiet h.quiet) fun half => ?_
    rw [h.levels, levels, h.corrections]
  | kept noted zero levels =>
    refine .kept (List.mem_append_left _ noted) (h.corrections ▸ zero) fun half => ?_
    exact (h.levels half).trans (levels half)

/-- Adopting a value sets both levels to it. -/
theorem wp_adopt (value : BitVec 6) (r : RegisterFile) :
    (adopt .lpfTuning value).wp none (fun _ r' => ∀ h, r'.get (Lpf.dcLevel h).address =
      (Lpf.dcLevel h).set (r.get (Lpf.dcLevel h).address) value) r := by
  have hstored (h : Half) : (Site.at (Lpf.dcLevel h).address).isStored := by cases h <;> rfl
  have hne : (Lpf.dcLevel .rx).address ≠ (Lpf.dcLevel .tx).address := by decide
  simp only [adopt, wp_bind, wp_assign (hstored _), between_ok]
  intro h
  cases h with
  | rx =>
    rw [RegisterFile.assign, RegisterFile.get_set_self, RegisterFile.get_assign_of_ne hne.symm]
  | tx => rw [RegisterFile.get_assign_of_ne hne, RegisterFile.assign, RegisterFile.get_set_self]

/-- Adopting a value keeps no zero. -/
theorem quiet_adopt (b : Block) (value : BitVec 6) :
    (adopt b value).Emits (· ≠ .note .keptBadValue) :=
  emits_adopt (fun _ _ => nofun) (fun _ _ _ => nofun) b value

/-- A value that is adopted is written to both levels. -/
theorem tuned_adopt (hc : c.Obeys none) :
    let o := (adopt .lpfTuning (c.corrections .lpfTuning 0)).run transport c
    Tuned c o.state o.events := by
  intro o
  have haside : (adopt .lpfTuning (c.corrections .lpfTuning 0)).Emits Event.Aside :=
    aside_adopt _ _
  have hheld : o.state.corrections = c.corrections := by
    rw [(state_of_aside haside hc).1]
    rfl
  refine .adopted (fun hmem => (quiet_adopt _ _).run transport c _ hmem rfl) ?_
  rw [hheld]
  exact (wp_run hc (wp_adopt _ _)).2

/-- A second value is adopted unless it is zero. -/
theorem tuned_adoptSecond (hc : c.Obeys none) :
    let o := (adoptSecond .lpfTuning (c.corrections .lpfTuning 0)).run transport c
    Tuned c o.state o.events := by
  intro o
  by_cases hzero : c.corrections .lpfTuning 0 = 0
  · have ho : o = (log .keptBadValue).run transport c := by
      simp only [o, adoptSecond, if_pos hzero]
    rw [ho]
    exact .kept List.mem_cons_self hzero fun _ => rfl
  · have ho : o = (adopt .lpfTuning (c.corrections .lpfTuning 0)).run transport c := by
      simp only [o, adoptSecond, if_neg hzero]
    rw [ho]
    exact tuned_adopt hc

/-- What is done with the value of a loop is done on a chip that holds it. -/
theorem tuned_settle_bind (hc : c.Obeys none) {count : BitVec 6}
    {f : Option (BitVec 6) → Procedure Bool} (hnone : f none = pure false)
    (hsome : ∀ c' : Chip, c'.Obeys none →
      let o := (f (some (c'.corrections .lpfTuning 0))).run transport c'
      o.result = .ok true → Tuned c' o.state o.events) :
    let o := (settle .lpfTuning 0 count >>= f).run transport c
    o.result = .ok true → Tuned c o.state o.events := by
  intro o hok
  obtain ⟨settled, hsettled, hrest, -⟩ := run_bind_ok transport hok
  have ho : o = _ := run_bind_of_ok transport f hsettled
  have hspared := levelsSpared_of_emits (spares_tuning count) hc
  rw [ho]
  cases settled with
  | none =>
    rw [hnone] at hrest
    cases hrest
  | some value =>
    obtain rfl := held_of_settle hc hsettled
    exact hspared.tuned (hsome _ hspared.obeys hrest)

/-- What is returned after the levels have been dealt with makes no difference to them. -/
theorem tuned_bind_pure {p : Procedure Unit}
    (h : Tuned c (p.run transport c).state (p.run transport c).events) (finished : Bool) :
    let o := (p >>= fun _ => pure finished).run transport c
    Tuned c o.state o.events := by
  rw [bind_pure_comp, run_map]
  exact h

/-- However the tuning ends well, the levels are dealt with. -/
theorem tuned_calibrateSubmodule (hc : c.Obeys none) :
    let o := (calibrateSubmodule .lpfTuning 0).run transport c
    o.result = .ok true → Tuned c o.state o.events := by
  refine tuned_settle_bind hc rfl fun c' hc' => ?_
  by_cases hsuspect : c'.corrections .lpfTuning 0 = suspectValue
  · -- the second loop comes after a note
    simp only [if_pos hsuspect]
    have hnote : LevelsSpared c' c' [.note .suspectValue] := ⟨hc', fun _ => rfl, by simp⟩
    intro hok
    refine hnote.tuned (tuned_settle_bind hc' rfl (fun c'' hc'' _ => ?_) hok)
    exact tuned_bind_pure (tuned_adoptSecond hc'') true
  · simp only [if_neg hsuspect]
    exact fun _ => tuned_bind_pure (tuned_adopt hc') true

/-- The note is not made by a loop. What is done with its value goes on with the results that are
left. -/
theorem noted_settle_bind {n : Nat} (hn : n < pollBudget) (hc : c.Poised .lpfTuning (some n))
    (count : BitVec 6) (f : Option (BitVec 6) → Procedure Bool) :
    ∃ c' : Chip, c'.Poised .lpfTuning (some n) ∧ c'.results = c.results.tail ∧
      (.note .keptBadValue ∈ ((settle .lpfTuning 0 count >>= f).run transport c).events ↔
        .note .keptBadValue ∈ ((f (some (upcoming c.results))).run transport c').events) := by
  obtain ⟨hvalue, hc', hledger⟩ := books_settle_of_lt hn 0 count (c.ledger []) c [] hc rfl
  have hquiet := (levelsSpared_of_emits (spares_tuning count) hc.obeys).quiet
  have hresults := congrArg Ledger.results hledger
  rw [Ledger.results_after, List.drop_one] at hresults
  refine ⟨_, hc', hresults, ?_⟩
  rw [run_bind_of_ok transport f hvalue, List.mem_append, or_iff_right hquiet]
  rfl

/-- Where runs end within the budget, a zero is kept exactly if it comes second to a suspect
result. -/
theorem noted_calibrateSubmodule {n : Nat} (hn : n < pollBudget)
    (hc : c.Poised .lpfTuning (some n)) :
    .note .keptBadValue ∈ ((calibrateSubmodule .lpfTuning 0).run transport c).events ↔
      upcoming c.results = suspectValue ∧ upcoming c.results.tail = 0 := by
  have hadopt (value : BitVec 6) (c : Chip) : .note .keptBadValue ∉
      ((adopt .lpfTuning value >>= fun _ => pure true).run transport c).events :=
    fun hmem => ((quiet_adopt _ value).bind fun _ => emits_pure true).run transport c _ hmem rfl
  obtain ⟨c₁, hc₁, hresults₁, hfirst⟩ := noted_settle_bind hn hc startCount _
  refine hfirst.trans ?_
  -- only a second result can be kept as a zero
  by_cases hsuspect : upcoming c.results = suspectValue
  · obtain ⟨c₂, -, -, hsecond⟩ := noted_settle_bind hn hc₁ 0 _
    simp only [if_pos hsuspect]
    have hne : Event.note .keptBadValue ≠ .note .suspectValue := by decide
    refine (List.mem_cons.trans (or_iff_right hne)).trans (hsecond.trans ?_)
    rw [hresults₁]
    by_cases hzero : upcoming c.results.tail = 0
    · simp only [adoptSecond, if_pos hzero]
      exact iff_of_true List.mem_cons_self ⟨hsuspect, hzero⟩
    · simp only [adoptSecond, if_neg hzero]
      exact iff_of_false (hadopt _ c₂) fun h => hzero h.2
  · simp only [if_neg hsuspect]
    exact iff_of_false (hadopt _ c₁) fun h => hsuspect h.1

/-! ## The calibration -/

/-- The block has one submodule and is attempted once. -/
theorem converge_tuning (gains : Gains) :
    converge .lpfTuning gains = (do
      if ← calibrateSubmodule .lpfTuning 0 then
        return ()
      else
        log .retriesExhausted
        log (.calibrationFailed .lpfTuning)
        fail .unexpectedState) := by
  have hattempt : attemptBlock .lpfTuning = calibrateSubmodule .lpfTuning 0 := by
    have hpure : (fun finished => if finished = true then calibrateAll .lpfTuning [] else
        pure false) = (pure : Bool → Procedure Bool) := by
      funext finished
      cases finished <;> rfl
    show (calibrateSubmodule .lpfTuning 0 >>= fun finished => if finished = true then
      calibrateAll .lpfTuning [] else pure false) = _
    rw [hpure]
    exact Procedure.bind_pure _
  have hnone : Block.lpfTuning.adjustment? gains = none := rfl
  rw [converge_of_none hnone, hattempt]

/-- An attempt that ends well is a calibration of the submodule that does. -/
theorem run_converge_tuning {gains : Gains}
    (hok : ((converge .lpfTuning gains).run transport c).result = .ok ()) :
    let tuned := (calibrateSubmodule .lpfTuning 0).run transport c
    tuned.result = .ok true ∧ (converge .lpfTuning gains).run transport c =
      ⟨.ok (), tuned.state, tuned.events⟩ := by
  rw [converge_tuning] at hok ⊢
  obtain ⟨finished, hfinished, hrest, -⟩ := run_bind_ok transport hok
  rw [run_bind_of_ok transport _ hfinished]
  cases finished with
  | false => cases hrest
  | true => exact ⟨hfinished, by simp⟩

/-- Before the submodule comes the set-up. -/
theorem setUpAndConverge_around (hc : c.Obeys none) (backup : Backup) :
    let o := (setUpAndConverge .lpfTuning backup).run transport c
    o.result = .ok () → ∃ c₁ before,
      let tuned := (calibrateSubmodule .lpfTuning 0).run transport c₁
      Bystood c c₁ before ∧ tuned.result = .ok true ∧ o.state = tuned.state ∧
        o.events = before ++ tuned.events := by
  intro o hok
  obtain ⟨_, hsetUp, hconverge, -⟩ := run_bind_ok transport (p := setUp .lpfTuning backup) hok
  have ho : o = _ := run_bind_of_ok transport (p := setUp .lpfTuning backup) _ hsetUp
  have hready := bystood_of_emits
    (emits_setUp outlying_read outlying_write outlying_clampedGain .lpfTuning backup) hc
  obtain ⟨htuned, hran⟩ := run_converge_tuning hconverge
  rw [hran] at ho
  rw [ho]
  exact ⟨_, _, hready, htuned, rfl, rfl⟩

/-- A calibration that ends well is one of the submodule, with what has nothing to do with the
levels around it. -/
theorem calibrate_around (hc : c.Obeys none) :
    let o := (calibrate .lpfTuning).run transport c
    o.result = .ok () → ∃ c₁ before after,
      let tuned := (calibrateSubmodule .lpfTuning 0).run transport c₁
      Bystood c c₁ before ∧ tuned.result = .ok true ∧ Bystood tuned.state o.state after ∧
        o.events = before ++ (tuned.events ++ after) := by
  intro o hok
  have ho : o = _ := run_calibrate transport .lpfTuning c
  rw [ho] at hok ⊢
  obtain ⟨backup, hbackup, hforced, -⟩ := run_bind_ok transport hok
  have hfound := bystood_of_emits (emits_takeBackup outlying_read .lpfTuning) hc
  rw [run_bind_of_ok transport _ hbackup, run_forceAll_cons]
  rw [run_forceAll_cons] at hforced
  generalize (takeBackup .lpfTuning).run transport c = found at hfound hforced ⊢
  have haround := setUpAndConverge_around hfound.obeys backup
  have hbody := (wp_run hfound.obeys (wp_true (setUpAndConverge .lpfTuning backup) _)).1
  have hafter := bystood_of_emits (emits_forceAll
    (emits_cleanUp outlying_read outlying_write outlying_clampedGain .lpfTuning backup)) hbody
  generalize (setUpAndConverge .lpfTuning backup).run transport found.state = body at *
  -- the body has ended well, or the first fault would be its own
  have hwell : body.result = .ok () := by
    cases hr : body.result with
    | ok => rfl
    | error fault =>
      rw [hr] at hforced
      cases hforced
  obtain ⟨c₁, before, hready, htuned, hstate, hevents⟩ := haround hwell
  rw [hstate] at hafter ⊢
  refine ⟨c₁, _, _, hfound.trans hready, htuned, hafter, ?_⟩
  simp only [hevents, List.append_assoc]

/-- However a tuning has ended well, the levels have been dealt with. -/
theorem tuned_calibrate (hc : c.Obeys none) :
    let o := (calibrate .lpfTuning).run transport c
    o.result = .ok () → Tuned c o.state o.events := by
  intro o hok
  obtain ⟨c₁, before, after, hbefore, htuned, hafter, hevents⟩ := calibrate_around hc hok
  rw [hevents]
  exact hbefore.tuned ((tuned_calibrateSubmodule hbefore.obeys htuned).bystood hafter)

/-- The filter tuning does not ask for the gain of the LNA. -/
theorem not_gainUnknown_tuning (r : RegisterFile) : ¬ GainUnknown .lpfTuning r :=
  fun h => nomatch h.1

/-- A tuning whose runs end within the budget ends well, with the value that it draws. -/
theorem run_tuning_of_lt {n : Nat} (hn : n < pollBudget) (hc : c.Poised .lpfTuning (some n)) :
    let o := (calibrate .lpfTuning).run transport c
    o.result = .ok () ∧ o.state.corrections .lpfTuning 0 = (draw c.results).1 := by
  obtain ⟨hok, hledger⟩ := run_calibrate_of_books hc (not_gainUnknown_tuning _)
    (books_converge_of_lt hn _ (c.ledger [0]))
  exact ⟨hok, congrFun (congrFun (congrArg Ledger.corrections hledger) .lpfTuning) 0⟩

/-- A tuning ends well only if its runs end within the budget. -/
theorem busyPolls_of_ok (hc : c.Poised .lpfTuning c.busyPolls)
    (hok : ((calibrate .lpfTuning).run transport c).result = .ok ()) :
    ∃ n, c.busyPolls = some n ∧ n < pollBudget := by
  by_contra hnone
  have hlong : ∀ n ∈ c.busyPolls, pollBudget ≤ n := fun n hn =>
    Nat.not_lt.1 fun hlt => hnone ⟨n, hn, hlt⟩
  obtain ⟨hfailed, -⟩ := run_calibrate_of_books hc (not_gainUnknown_tuning _)
    (books_converge_of_le hlong highest_eq (by decide) (c.ledger [0]))
  rw [hfailed] at hok
  cases hok

/-- If no strobe was left in the control register, a tuning that ends well keeps a zero exactly if
that comes second to a suspect result. -/
theorem noted_calibrate (hc : c.Poised .lpfTuning c.busyPolls) :
    let o := (calibrate .lpfTuning).run transport c
    o.result = .ok () → (.note .keptBadValue ∈ o.events ↔
      upcoming c.results = suspectValue ∧ upcoming c.results.tail = 0) := by
  intro o hok
  obtain ⟨n, hpolls, hn⟩ := busyPolls_of_ok hc hok
  obtain ⟨c₁, before, after, hbefore, -, hafter, hevents⟩ := calibrate_around hc.obeys hok
  have hnoted := noted_calibrateSubmodule hn (hbefore.poised (hpolls ▸ hc))
  rw [hbefore.results] at hnoted
  rw [hevents, List.mem_append, List.mem_append, or_iff_right hbefore.quiet,
    or_iff_left hafter.quiet, hnoted]

/-- A filter tuning that ends well leaves a value that is read in the end. Both levels are set to
it, and the rest of their registers is kept, unless the journal notes that a zero is kept: then the
value is zero, and the levels are as before. Unless a strobe was left in the control register, that
is so exactly if the first result is suspect and the second one is zero. -/
theorem calibrate_tunes_levels (c : Chip) (hread : c.failRead = none) (hwrite : c.failWrite = none)
    (hok : ((calibrate .lpfTuning).run transport c).result = .ok ()) :
    let o := (calibrate .lpfTuning).run transport c
    ∃ (values : Values) (value : BitVec 6),
      o.state.shows readValues = .ok values ∧ values .lpfTuning = some (value.setWidth 8) ∧
      (.note .keptBadValue ∉ o.events → ∀ h, o.state.registers.get (Lpf.dcLevel h).address =
        (Lpf.dcLevel h).set (c.registers.get (Lpf.dcLevel h).address) value) ∧
      (.note .keptBadValue ∈ o.events → value = 0 ∧
        ∀ h, o.state.registers.get (Lpf.dcLevel h).address =
          c.registers.get (Lpf.dcLevel h).address) ∧
      (c.registers.flag (Dc.load .lpfTuning) = false →
        c.registers.flag (Dc.start .lpfTuning) = false →
        (.note .keptBadValue ∈ o.events ↔
          upcoming c.results = suspectValue ∧ upcoming c.results.tail = 0)) := by
  intro o
  have hc : c.Obeys none := ⟨hread, hwrite, fun _ hw => nomatch hw⟩
  have htuned : Tuned c o.state o.events := tuned_calibrate hc hok
  refine ⟨_, _, shows_readValues o.state, rfl, fun hquiet => ?_, fun hnoted => ?_,
    fun hload hstart => noted_calibrate ⟨hc, ⟨hload, hstart⟩, rfl⟩ hok⟩
  · cases htuned with
    | adopted quiet levels => exact levels
    | kept noted zero levels => exact absurd noted hquiet
  · cases htuned with
    | adopted quiet levels => exact absurd hnoted quiet
    | kept noted zero levels => exact ⟨zero, levels⟩

/-- A tuning with a second loop: from the starting levels 5 and 9, both are set to the value 40, and
the other bits of their registers are kept. -/
theorem calibrate_tunes_levels_second :
    let c := { initial with
      registers := (initialRegisters.set 0x35 0x45).set 0x55 0xc9, results := [31, 40] : Chip }
    let o := (calibrate .lpfTuning).run transport c
    o.result = .ok () ∧ o.state.registers.get 0x35 = 0x68 ∧ o.state.registers.get 0x55 = 0xe8 := by
  intro c o
  have hc : c.Poised .lpfTuning (some 0) :=
    ⟨⟨rfl, rfl, fun _ hw => nomatch hw⟩, ⟨by decide, by decide⟩, rfl⟩
  obtain ⟨hok, hheld⟩ := run_tuning_of_lt (by decide) hc
  obtain ⟨values, value, hshown, hvalue, hset, -, hnoted⟩ := calibrate_tunes_levels c rfl rfl hok
  obtain rfl := Except.ok.inj ((shows_readValues o.state).symm.trans hshown)
  have hforty : value = 40 := by
    have hsame : (o.state.corrections .lpfTuning 0).setWidth 8 = value.setWidth 8 :=
      Option.some.inj hvalue
    have hdrawn : (draw c.results).1.setWidth 8 = (40 : Byte) := by decide
    have hwidth : ∀ v : BitVec 6, (40 : Byte) = v.setWidth 8 → v = 40 := by decide
    exact hwidth value (by rw [← hsame, hheld, hdrawn])
  have hquiet : .note .keptBadValue ∉ o.events := fun hmem =>
    absurd ((hnoted (by decide) (by decide)).1 hmem).2 (by decide)
  subst hforty
  exact ⟨hok, (hset hquiet .tx).trans (by decide), (hset hquiet .rx).trans (by decide)⟩

/-- A zero that comes second is reported as the value, and the levels 5 and 9 are left as they
were. -/
theorem tuning_misses_levels :
    let c := { initial with
      registers := (initialRegisters.set 0x35 0x45).set 0x55 0xc9, results := [31, 0] : Chip }
    let o := (calibrate .lpfTuning).run transport c
    o.result = .ok () ∧
      (∃ values, o.state.shows readValues = .ok values ∧ values .lpfTuning = some 0) ∧
      o.state.registers.field (Lpf.dcLevel .tx) = 5 ∧
      o.state.registers.field (Lpf.dcLevel .rx) = 9 := by
  intro c o
  have hc : c.Poised .lpfTuning (some 0) :=
    ⟨⟨rfl, rfl, fun _ hw => nomatch hw⟩, ⟨by decide, by decide⟩, rfl⟩
  obtain ⟨hok, hheld⟩ := run_tuning_of_lt (by decide) hc
  have hnoted := (noted_calibrate hc hok).2 ⟨by decide, by decide⟩
  cases tuned_calibrate hc.obeys hok with
  | adopted quiet levels => exact absurd hnoted quiet
  | kept noted zero levels =>
    refine ⟨hok, ⟨_, shows_readValues o.state, ?_⟩, ?_, ?_⟩
    · show some ((o.state.corrections .lpfTuning 0).setWidth 8) = _
      rw [zero]
      rfl
    · exact (congrArg (Lpf.dcLevel .tx).get (levels .tx)).trans (by decide)
    · exact (congrArg (Lpf.dcLevel .rx).get (levels .rx)).trans (by decide)

end Calibration

end Transceiver
