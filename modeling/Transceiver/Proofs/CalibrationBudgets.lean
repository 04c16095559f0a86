import Transceiver.Proofs.CalibrationStarts

/-!
# The budgets of a calibration

Over any transport a calibration ends within fixed budgets. The chronicle of a history lists its
attempts, in each attempt the loops that were run, and in each loop the answers to its polls. A loop
expires when all polls of its budget have found the engine busy. That ends its attempt, and only
then a further one is made.

Between the polls the rule is on single events: a pause comes right after a poll that has found the
engine busy, and after such a poll nothing else comes.
-/

namespace Transceiver

namespace Calibration

open Procedure Register

/-! ## The chronicle -/

/-- A run of the low-level loop. -/
structure Loop where
  submodule : Nat
  /-- The answers to the polls, the latest first. -/
  polls : List (Option Byte)
deriving Repr, DecidableEq

/-- How many polls of a loop have found the engine busy. -/
def Loop.busyPolls (b : Block) (loop : Loop) : Nat :=
  loop.polls.countP fun answer => answer.any (Dc.busy b).isSet

/-- All polls that a loop may make have found the engine busy. -/
def Loop.Expired (b : Block) (loop : Loop) : Prop :=
  loop.busyPolls b = pollBudget

/-- The loops of an attempt, the latest first. -/
abbrev Attempt := List Loop

/-- One of the loops of an attempt has expired. -/
def Attempt.Expired (b : Block) (attempt : Attempt) : Prop :=
  ∃ loop ∈ attempt, loop.Expired b

end Calibration

/-- The attempts, the latest first, with an event entered: a further attempt, a further loop, or a
further poll of the latest loop. -/
def Event.enter (b : Calibration.Block) (attempts : List Calibration.Attempt) (e : Event) :
    List Calibration.Attempt :=
  match e, attempts with
  | .note (.retrying _ _), attempts => [] :: attempts
  | .note (.calibrating _ submodule), current :: earlier =>
    (⟨submodule, []⟩ :: current) :: earlier
  | .read address answer, (loop :: loops) :: earlier =>
    if address = (Register.Dc.busy b).address then
      ({ loop with polls := answer :: loop.polls } :: loops) :: earlier
    else (loop :: loops) :: earlier
  | _, attempts => attempts

namespace Calibration

open Procedure Register

/-- The attempts of a history, the latest first. -/
def attempts (b : Block) (events : List Event) : List Attempt :=
  events.foldl (Event.enter b) [[]]

@[simp] theorem attempts_append_singleton (b : Block) (events : List Event) (e : Event) :
    attempts b (events ++ [e]) = e.enter b (attempts b events) :=
  List.foldl_append

/-- Loops of some submodules, each of them run at most some times and polled within the budget. -/
structure Loops (most : Nat) (submodules : List Nat) (attempt : Attempt) : Prop where
  submodule : ∀ loop ∈ attempt, loop.submodule ∈ submodules
  polls : ∀ loop ∈ attempt, loop.polls.length ≤ pollBudget
  most : ∀ s, attempt.countP (·.submodule = s) ≤ most

/-- The attempts of a history are within their budgets, and all but the last one have expired. -/
structure WithinBudget (b : Block) (events : List Event) : Prop where
  attempts : (attempts b events).length ≤ b.attemptBudget
  loops : ∀ attempt ∈ Calibration.attempts b events, Loops 2 (List.range b.submodules) attempt
  expired : ∀ attempt ∈ (Calibration.attempts b events).tail, attempt.Expired b

/-! ## Pauses -/

/-- The last event is a poll that has found the engine busy. -/
def endsBusy (b : Block) (events : List Event) : Bool :=
  match events.getLast? with
  | some (.read address (some status)) =>
    decide (address = (Dc.busy b).address) && (Dc.busy b).isSet status
  | _ => false

/-- After the events `past`, an event is a pause exactly if a poll has just found the engine busy,
and then it is the pause between polls; the status is polled in loops only. -/
def Paced (b : Block) (past : List Event) : Event → Prop
  | .pause microseconds => microseconds = pollPause ∧ endsBusy b past = true
  | .read address _ => endsBusy b past = false ∧
    (address = (Dc.busy b).address → ∃ loop loops earlier,
      attempts b past = (loop :: loops) :: earlier)
  | .write _ _ _ | .note _ => endsBusy b past = false

/-! ## Parts without loops -/

/-- An event that enters nothing into the chronicle, is no pause and no alarm. -/
def Plain (b : Block) : Event → Prop
  | .read address _ => address ≠ (Dc.busy b).address
  | .write _ _ _ => True
  | .note (.retrying _ _) | .note (.calibrating _ _) => False
  | .note entry => entry.isAlarm = false
  | .pause _ => False

/-- A fault is due to a refused access. -/
def Excused {α : Type} (result : Except Fault α) (past : List Event) : Prop :=
  ∀ fault, result = .error fault → fault = .io ∧ ∃ e ∈ past, e.isRefused

section Plain

variable {b : Block} {past : List Event}

/-- The chronicle does not change with a plain event. -/
theorem Plain.enter {e : Event} (h : Plain b e) (attempts : List Attempt) :
    e.enter b attempts = attempts := by
  match e, attempts with
  | .read address answer, (loop :: loops) :: earlier => exact if_neg h
  | .read _ _, [] | .read _ _, [] :: _ | .write _ _ _, _ | .pause _, _ => rfl
  | .note entry, attempts =>
    cases entry with
    | retrying stage gain | calibrating block submodule => exact h.elim
    | _ => cases attempts <;> rfl

/-- A plain event is no alarm. -/
theorem Plain.isAlarm {e : Event} (h : Plain b e) : e.isAlarm = false := by
  cases e with
  | note entry => cases entry <;> first | exact h | rfl
  | read _ _ | write _ _ _ | pause _ => rfl

/-- A plain event is no poll, so no pause is due after it. -/
theorem Plain.endsBusy {e : Event} (h : Plain b e) : endsBusy b (past ++ [e]) = false := by
  unfold Calibration.endsBusy
  rw [List.getLast?_concat]
  match e with
  | .read address (some status) =>
    have hne : address ≠ (Dc.busy b).address := h
    simp [hne]
  | .read _ none | .write _ _ _ | .note _ | .pause _ => rfl

/-- A plain event keeps the pace wherever no pause is due. -/
theorem Plain.paced {e : Event} (h : Plain b e) (hbusy : Calibration.endsBusy b past = false) :
    Paced b past e := by
  match e with
  | .read address answer => exact ⟨hbusy, fun heq => (h heq).elim⟩
  | .write _ _ _ | .note _ => exact hbusy
  | .pause _ => exact h.elim

/-- What a part without loops leaves behind. -/
structure Steady {α : Type} (b : Block) (past : List Event) (result : Except Fault α)
    (past' : List Event) : Prop where
  grown : past <+: past'
  attempts : attempts b past' = attempts b past
  settled : endsBusy b past' = false
  excused : Excused result past'

/-- Nor does it change with any number of them. -/
theorem attempts_append {new : List Event} (h : ∀ e ∈ new, Plain b e) :
    attempts b (past ++ new) = attempts b past := by
  induction new generalizing past with
  | nil => rw [List.append_nil]
  | cons e new ih =>
    obtain ⟨he, hnew⟩ := List.forall_mem_cons.1 h
    rw [List.append_cons, ih hnew, attempts_append_singleton, he.enter]

theorem endsBusy_append {new : List Event} (hbusy : endsBusy b past = false)
    (h : ∀ e ∈ new, Plain b e) : endsBusy b (past ++ new) = false := by
  induction new generalizing past with
  | nil => rwa [List.append_nil]
  | cons e new ih =>
    obtain ⟨he, hnew⟩ := List.forall_mem_cons.1 h
    rw [List.append_cons]
    exact ih he.endsBusy hnew

/-- A part without loops leaves the chronicle as it is and keeps the pace. -/
theorem ensures_plain {α : Type} {p : Procedure α} (hbusy : endsBusy b past = false)
    (hc : p.Careful (fun _ _ => True) fun _ => False) (he : p.Emits (Plain b)) :
    p.Ensures (Paced b) (Steady b past) past := by
  refine (hc.ensures he (fun _ h => h.isAlarm) fun new e hnew h => ?_).mono fun _ _ h => ?_
  · exact h.paced (endsBusy_append hbusy hnew)
  · obtain ⟨⟨new, rfl, hnew⟩, hfault⟩ := h
    exact ⟨List.prefix_append _ _, attempts_append hnew, endsBusy_append hbusy hnew, hfault⟩

end Plain

/-! ## A loop -/

section Loop

variable {α : Type} {b : Block} {past : List Event} {submodule : Nat} {current : Attempt}
  {earlier : List Attempt}

/-- The loops `new` have been run in the present attempt after those of `current`. A result is
unfinished exactly if one of them has expired. -/
structure Ran (b : Block) (current : Attempt) (earlier : List Attempt) (unfinished : α → Prop)
    (result : Except Fault α) (past' : List Event) (new : Attempt) : Prop where
  attempts : attempts b past' = (new ++ current) :: earlier
  settled : endsBusy b past' = false
  excused : Excused result past'
  expired : ∀ a, result = .ok a → (unfinished a ↔ Attempt.Expired b new)

/-- Some loops have been run, of some submodules and each of these at most some times. -/
abbrev RunsLoops (b : Block) (most : Nat) (submodules : List Nat) (current : Attempt)
    (earlier : List Attempt) (unfinished : α → Prop) (result : Except Fault α)
    (past' : List Event) : Prop :=
  ∃ new, Loops most submodules new ∧ Ran b current earlier unfinished result past' new

theorem loops_singleton {polls : List (Option Byte)} (h : polls.length ≤ pollBudget) :
    Loops 1 [submodule] [⟨submodule, polls⟩] where
  submodule := by simp
  polls := by simpa using h
  most s := List.countP_le_length

/-- An attempt of one loop has expired if that loop has. -/
theorem expired_singleton {loop : Loop} : Attempt.Expired b [loop] ↔ loop.Expired b := by
  simp [Attempt.Expired]

/-- Polling stops within the budget, and only an expired loop has not finished. -/
theorem ensures_awaitDone {budget : Nat} {polls : List (Option Byte)}
    (hattempts : attempts b past = (⟨submodule, polls⟩ :: current) :: earlier)
    (hsettled : endsBusy b past = false) (hlength : polls.length + budget = pollBudget)
    (hbusy : Loop.busyPolls b ⟨submodule, polls⟩ = polls.length) :
    (awaitDone b budget).Ensures (Paced b)
      (RunsLoops b 1 [submodule] current earlier (· = false)) past := by
  induction budget generalizing past polls with
  | zero =>
    -- all polls of the budget have been busy
    have hexpired : Loop.Expired b ⟨submodule, polls⟩ := hbusy.trans hlength
    refine ⟨[⟨submodule, polls⟩], loops_singleton (Nat.le_of_eq hlength), hattempts, hsettled,
      nofun, ?_⟩
    rintro _ ⟨⟩
    simpa [expired_singleton] using hexpired
  | succ budget ih =>
    have hallowed (answer : Option Byte) : Paced b past (.read (Dc.busy b).address answer) :=
      ⟨hsettled, fun _ => ⟨_, _, _, hattempts⟩⟩
    have henter (answer : Option Byte) :
        attempts b (past ++ [.read (Dc.busy b).address answer]) =
          (⟨submodule, answer :: polls⟩ :: current) :: earlier := by
      simp [hattempts, Event.enter]
    have hlt (answer : Option Byte) : (answer :: polls).length ≤ pollBudget := by
      rw [List.length_cons]
      omega
    refine ensures_readByte_bind hallowed ?_ fun status => ?_
    · refine ⟨[⟨submodule, none :: polls⟩], loops_singleton (hlt none), henter none,
        by simp [endsBusy], ?_, nofun⟩
      rintro _ ⟨⟩
      exact ⟨rfl, _, List.mem_append_right _ (List.mem_singleton_self _), rfl⟩
    · have hends : endsBusy b (past ++ [.read (Dc.busy b).address (some status)]) =
          (Dc.busy b).isSet status := by simp [endsBusy]
      have hcount : Loop.busyPolls b ⟨submodule, some status :: polls⟩ =
          polls.length + if (Dc.busy b).isSet status then 1 else 0 := by
        simpa [Loop.busyPolls, List.countP_cons] using hbusy
      split
      · -- one more busy poll, and its pause
        next hset =>
        refine ensures_wait_bind ⟨rfl, hends.trans hset⟩ ?_
        have hpaused : attempts b (past ++ [.read (Dc.busy b).address (some status)] ++
            [.pause pollPause]) = (⟨submodule, some status :: polls⟩ :: current) :: earlier := by
          rw [attempts_append_singleton, henter]
          rfl
        refine ih hpaused (by simp [endsBusy]) ?_ ?_
        · rw [List.length_cons]
          omega
        · rw [hcount, if_pos hset, List.length_cons]
      · next hset =>
        have hunexpired : ¬ Loop.Expired b ⟨submodule, some status :: polls⟩ := by
          intro hexpired
          unfold Loop.Expired at hexpired
          rw [hcount, if_neg hset] at hexpired
          omega
        refine ⟨[⟨submodule, some status :: polls⟩], loops_singleton (hlt (some status)),
          henter (some status), by simpa [hends] using hset, nofun, ?_⟩
        rintro _ ⟨⟩
        simpa [expired_singleton] using hunexpired

section Ran

variable {β : Type} {unfinished : α → Prop} {unfinished' : β → Prop} {past' : List Event}
  {new : Attempt}

/-- Once a fault has ended the loops, it makes no difference what would have been unfinished. -/
theorem Ran.fail {fault : Fault} (h : Ran b current earlier unfinished (.error fault) past new) :
    Ran b current earlier unfinished' (.error fault) past new where
  attempts := h.attempts
  settled := h.settled
  excused := by
    rintro _ ⟨⟩
    exact h.excused fault rfl
  expired := nofun

/-- Another result may be returned that is unfinished in the same case. -/
theorem Ran.done {a : α} {a' : β} (h : Ran b current earlier unfinished (.ok a) past new)
    (hsame : unfinished' a' ↔ unfinished a) :
    Ran b current earlier unfinished' (.ok a') past new where
  attempts := h.attempts
  settled := h.settled
  excused := nofun
  expired := by
    rintro _ ⟨⟩
    exact hsame.trans (h.expired a rfl)

/-- What comes after the loops and runs none leaves them as they are. -/
theorem Ran.steady {γ : Type} {a : α} {result : Except Fault γ}
    (h : Ran b current earlier unfinished (.ok a) past new)
    (hsteady : Steady b past result past') :
    Ran b current earlier unfinished (.ok a) past' new :=
  ⟨hsteady.attempts.trans h.attempts, hsteady.settled, nofun, h.expired⟩

/-- A part that runs no loop leaves the loops before as they are, and adds its faults only. -/
theorem Ran.bind {γ : Type} {p : Procedure γ} {f : γ → Procedure β} {a : α} {most : Nat}
    {submodules : List Nat} (h : Ran b current earlier unfinished (.ok a) past new)
    (hnew : Loops most submodules new) (hc : p.Careful (fun _ _ => True) fun _ => False)
    (he : p.Emits (Plain b))
    (hf : ∀ c past', Ran b current earlier unfinished (.ok a) past' new →
      (f c).Ensures (Paced b) (RunsLoops b most submodules current earlier unfinished') past') :
    (p >>= f).Ensures (Paced b) (RunsLoops b most submodules current earlier unfinished') past := by
  refine (ensures_plain h.settled hc he).bind (fun c past' hsteady => hf c past' (h.steady hsteady))
    fun fault past' hsteady => ⟨new, hnew, ?_, hsteady.settled, ?_, nofun⟩
  · exact hsteady.attempts.trans h.attempts
  · rintro _ ⟨⟩
    exact hsteady.excused fault rfl

end Ran

/-- A launch fails only if it is refused an access. -/
theorem careful_launch (b : Block) (submodule : Nat) (count : BitVec 6) :
    (launch b submodule count).Careful (fun _ _ => True) fun _ => False := by
  refine (careful_readByte _).bind fun old _ => ?_
  refine (careful_writeByte trivial).bind fun _ _ => ?_
  refine (careful_writeByte trivial).bind fun _ _ => ?_
  refine (careful_writeByte trivial).bind fun _ _ => ?_
  refine (careful_writeByte trivial).bind fun _ _ => ?_
  exact (careful_writeByte trivial).bind fun _ _ => careful_writeByte trivial

/-- The launch of a loop polls no status. -/
theorem plain_launch (b : Block) (submodule : Nat) (count : BitVec 6) :
    (launch b submodule count).Emits (Plain b) := by
  have hcontrol : (Dc.submodule b).address ≠ (Dc.busy b).address := by cases b <;> decide
  exact emits_launch (fun _ => hcontrol) (fun _ _ => trivial) (fun _ _ => trivial) _ _

/-- A wait is polled within the budget, and it has a value unless all polls are used up. -/
theorem ensures_awaitValue
    (hattempts : attempts b past = (⟨submodule, []⟩ :: current) :: earlier)
    (hsettled : endsBusy b past = false) :
    (awaitValue b).Ensures (Paced b)
      (RunsLoops b 1 [submodule] current earlier (· = none)) past := by
  have hvalue : (Dc.value b).address ≠ (Dc.busy b).address := by cases b <;> decide
  have hlog {entry : Note} (hentry : Plain b (.note entry)) := emits_log hentry
  have hdone : (awaitDone b pollBudget).Ensures (Paced b)
      (RunsLoops b 1 [submodule] current earlier (· = false)) past :=
    ensures_awaitDone hattempts hsettled (Nat.zero_add _) rfl
  refine hdone.bind (fun finished past₁ ⟨new, hnew, hran⟩ => ?_)
    fun fault past₁ ⟨new, hnew, hran⟩ =>
    ⟨new, hnew, hran.fail⟩
  -- the rest runs no loop, and returns a value exactly if the polls have finished
  split
  · next hfinished =>
    refine hran.bind hnew (careful_load _) (emits_load fun _ => hvalue) fun value _ hran => ?_
    refine hran.bind hnew (careful_log rfl) (hlog rfl) fun _ _ hran => ?_
    exact ⟨new, hnew, hran.done (by simp [hfinished])⟩
  · next hfinished =>
    refine hran.bind hnew (careful_log rfl) (hlog rfl) fun _ _ hran => ?_
    exact ⟨new, hnew, hran.done (by simpa using hfinished)⟩

/-- A loop is entered into the chronicle with its polls, and has no value exactly if it expires. -/
theorem ensures_settle (hattempts : attempts b past = current :: earlier)
    (hsettled : endsBusy b past = false) (count : BitVec 6) :
    (settle b submodule count).Ensures (Paced b)
      (RunsLoops b 1 [submodule] current earlier (· = none)) past := by
  rw [settle_eq]
  refine ensures_log_bind hsettled ?_
  have hbegun : Ran b current earlier (fun _ : Unit => False) (.ok ())
      (past ++ [.note (.calibrating b submodule)]) [⟨submodule, []⟩] := by
    refine ⟨by simp [hattempts, Event.enter], by simp [endsBusy], nofun, fun _ _ => ?_⟩
    simp [expired_singleton, Loop.Expired, Loop.busyPolls, pollBudget]
  exact hbegun.bind (loops_singleton (Nat.zero_le _)) (careful_launch b submodule count)
    (plain_launch b submodule count) fun _ _ hran => ensures_awaitValue hran.attempts hran.settled

end Loop

/-! ## An attempt -/

section Attempt

variable {α β : Type} {b : Block} {past past' : List Event} {submodule : Nat} {current : Attempt}
  {earlier : List Attempt} {unfinished : α → Prop} {unfinished' : β → Prop} {new new' : Attempt}

theorem Loops.nil {most : Nat} {submodules : List Nat} : Loops most submodules [] :=
  ⟨nofun, nofun, fun _ => Nat.zero_le _⟩

theorem Loops.mono {most most' : Nat} {submodules : List Nat} (h : Loops most submodules new)
    (hmost : most ≤ most') : Loops most' submodules new :=
  ⟨h.submodule, h.polls, fun s => Nat.le_trans (h.most s) hmost⟩

/-- Loops of the same submodule add up. -/
theorem Loops.append {most most' : Nat} (h : Loops most [submodule] new)
    (h' : Loops most' [submodule] new') : Loops (most + most') [submodule] (new' ++ new) where
  submodule := List.forall_mem_append.2 ⟨h'.submodule, h.submodule⟩
  polls := List.forall_mem_append.2 ⟨h'.polls, h.polls⟩
  most s := by
    have hs := h.most s
    have hs' := h'.most s
    rw [List.countP_append]
    omega

/-- Loops of other submodules do not. -/
theorem Loops.append_cons {most : Nat} {submodules : List Nat} (h : Loops most [submodule] new)
    (h' : Loops most submodules new') (hnotin : submodule ∉ submodules) :
    Loops most (submodule :: submodules) (new' ++ new) where
  submodule := by
    refine List.forall_mem_append.2 ⟨fun loop hloop => ?_, fun loop hloop => ?_⟩
    · exact List.mem_cons_of_mem _ (h'.submodule loop hloop)
    · exact List.mem_singleton.1 (h.submodule loop hloop) ▸ List.mem_cons_self
  polls := List.forall_mem_append.2 ⟨h'.polls, h.polls⟩
  most s := by
    rw [List.countP_append]
    -- the loops of the two parts are at different submodules, so that their numbers do not add up
    by_cases hs : s = submodule
    · have hnone : new'.countP (·.submodule = s) = 0 := by
        refine List.countP_eq_zero.2 fun loop hloop => ?_
        have hmem := h'.submodule loop hloop
        simp only [decide_eq_true_eq]
        rintro rfl
        exact hnotin (hs ▸ hmem)
      have hle := h.most s
      omega
    · have hnone : new.countP (·.submodule = s) = 0 := by
        refine List.countP_eq_zero.2 fun loop hloop => ?_
        have hmem := List.mem_singleton.1 (h.submodule loop hloop)
        simpa [hmem] using fun heq : submodule = s => hs heq.symm
      have hle := h'.most s
      omega

/-- Loops that are run after others none of which has expired. -/
theorem Ran.append {a : α} {result : Except Fault β}
    (h : Ran b current earlier unfinished (.ok a) past new) (ha : ¬ unfinished a)
    (h' : Ran b (new ++ current) earlier unfinished' result past' new') :
    Ran b current earlier unfinished' result past' (new' ++ new) where
  attempts := by rw [h'.attempts, List.append_assoc]
  settled := h'.settled
  excused := h'.excused
  expired a' ha' := by
    have hnone : ¬ Attempt.Expired b new := fun hexpired => ha ((h.expired a rfl).2 hexpired)
    rw [h'.expired a' ha']
    simp only [Attempt.Expired, List.mem_append] at hnone ⊢
    grind

/-- The status of a block is polled nowhere but in its loops. -/
theorem plain_read {address : Address}
    (h : address ∈ setUpRegisters ∨ ∃ half, address = (Lpf.dcLevel half).address)
    (answer : Option Byte) : Plain b (.read address answer) := by
  show address ≠ (Dc.busy b).address
  rintro rfl
  rcases h with h | ⟨half, h⟩
  · revert h
    cases b <;> decide
  · revert h
    cases b <;> cases half <;> decide

/-- A submodule is run once, and after a suspect result once more. -/
theorem ensures_calibrateSubmodule (hlt : submodule < b.submodules)
    (hattempts : attempts b past = current :: earlier) (hsettled : endsBusy b past = false) :
    (calibrateSubmodule b submodule).Ensures (Paced b)
      (RunsLoops b 2 [submodule] current earlier (· = false)) past := by
  have hany : b.Allows fun _ _ => True := .of_all fun _ _ => trivial
  have hroute : (routeStages b submodule).Emits (Plain b) :=
    emits_routeStages (fun _ haddress => plain_read (.inl haddress)) (fun _ _ _ _ => trivial) b _
  have hadopt (value : BitVec 6) : (adopt b value).Emits (Plain b) :=
    emits_adopt (fun half => plain_read (.inr ⟨half, rfl⟩)) (fun _ _ _ => trivial) b value
  have hadoptSecond (value : BitVec 6) : (adoptSecond b value).Emits (Plain b) :=
    emits_adoptSecond (fun half => plain_read (.inr ⟨half, rfl⟩)) (fun _ _ _ => trivial) rfl b value
  -- nothing has been run before the stages are routed
  have hnone : Ran b current earlier (fun _ : Unit => False) (.ok ()) past [] :=
    ⟨hattempts, hsettled, nofun, fun _ _ => by simp [Attempt.Expired]⟩
  refine hnone.bind .nil (careful_routeStages hany hlt) hroute fun _ _ hran => ?_
  refine (ensures_settle hran.attempts hran.settled startCount).bind
    (fun first _ ⟨new, hnew, hran⟩ => ?_) fun _ _ ⟨new, hnew, hran⟩ =>
      ⟨new, hnew.mono (by decide), hran.fail⟩
  have hnew' : Loops 2 [submodule] new := hnew.mono (by decide)
  cases first with
  | none => exact ⟨new, hnew', hran.done (by simp)⟩
  | some first =>
    dsimp only
    split
    · -- a suspect result, the loop is run once more
      refine hran.bind hnew' (careful_log rfl) (emits_log rfl) fun _ _ hran => ?_
      refine (ensures_settle hran.attempts hran.settled 0).bind
        (fun second _ ⟨again, hagain, hran'⟩ => ?_) fun _ _ ⟨again, hagain, hran'⟩ =>
          ⟨_, hnew.append hagain, hran.append (by simp) hran'.fail⟩
      have hboth := hran.append (by simp) hran'
      cases second with
      | none => exact ⟨_, hnew.append hagain, hboth.done (by simp)⟩
      | some second =>
        refine hboth.bind (hnew.append hagain) (careful_adoptSecond hany second)
          (hadoptSecond second) fun _ _ hran => ?_
        exact ⟨_, hnew.append hagain, hran.done (by simp)⟩
    · refine hran.bind hnew' (careful_adopt hany first) (hadopt first) fun _ _ hran => ?_
      exact ⟨new, hnew', hran.done (by simp)⟩

/-- The submodules of an attempt are run until a loop expires. -/
theorem ensures_calibrateAll {submodules : List Nat} (hnodup : submodules.Nodup)
    (hin : ∀ s ∈ submodules, s < b.submodules)
    (hattempts : attempts b past = current :: earlier) (hsettled : endsBusy b past = false) :
    (calibrateAll b submodules).Ensures (Paced b)
      (RunsLoops b 2 submodules current earlier (· = false)) past := by
  -- an attempt goes on to the next submodule only while its loops finish
  induction submodules generalizing past current with
  | nil =>
    refine ⟨[], .nil, hattempts, hsettled, nofun, ?_⟩
    rintro _ ⟨⟩
    simp [Attempt.Expired]
  | cons submodule rest ih =>
    obtain ⟨hnotin, hrest⟩ := List.nodup_cons.1 hnodup
    obtain ⟨hlt, hinrest⟩ := List.forall_mem_cons.1 hin
    have hsubset {new : Attempt} (h : Loops 2 [submodule] new) : Loops 2 (submodule :: rest) new :=
      h.append_cons .nil hnotin
    refine (ensures_calibrateSubmodule hlt hattempts hsettled).bind
      (fun finished _ ⟨new, hnew, hran⟩ => ?_) fun _ _ ⟨new, hnew, hran⟩ =>
        ⟨new, hsubset hnew, hran.fail⟩
    split
    · next hfinished =>
      refine (ih hrest hinrest hran.attempts hran.settled).mono fun _ _ ⟨new', hnew', hran'⟩ => ?_
      exact ⟨_, hnew.append_cons hnew' hnotin, hran.append (by simpa using hfinished) hran'⟩
    · next hfinished =>
      exact ⟨new, hsubset hnew, hran.done (by simpa using hfinished)⟩

end Attempt

/-! ## Every attempt -/

section Attempts

variable {b : Block} {past past' : List Event} {last : Attempt} {earlier : List Attempt}

/-- Attempts within their budgets, all but the last one expired. -/
structure Attempted (b : Block) (past : List Event) (last : Attempt) (earlier : List Attempt) :
    Prop where
  attempts : attempts b past = last :: earlier
  settled : endsBusy b past = false
  loops : ∀ attempt ∈ last :: earlier, Loops 2 (List.range b.submodules) attempt
  expired : ∀ attempt ∈ earlier, attempt.Expired b
  length : earlier.length < b.attemptBudget

/-- Attempts that are within their budgets are so in the chronicle. -/
theorem Attempted.withinBudget (h : Attempted b past last earlier) : WithinBudget b past where
  attempts := by
    rw [h.attempts, List.length_cons]
    exact h.length
  loops := h.attempts ▸ h.loops
  expired := by
    rw [h.attempts]
    exact h.expired

/-- A part without loops leaves the attempts as they are. -/
theorem Attempted.steady {α : Type} {result : Except Fault α} (h : Attempted b past last earlier)
    (hsteady : Steady b past result past') : Attempted b past' last earlier :=
  ⟨hsteady.attempts.trans h.attempts, hsteady.settled, h.loops, h.expired, h.length⟩

/-- How attempts end: well after one that has not expired, in a fault after a refused access, or
when an attempt has expired and no gain is left to lower. -/
structure Concluded (b : Block) (result : Except Fault Unit) (past : List Event) (last : Attempt)
    (earlier : List Attempt) : Prop where
  attempted : Attempted b past last earlier
  ok : result = .ok () → ¬ last.Expired b
  error : ∀ fault, result = .error fault → (fault = .io ∧ ∃ e ∈ past, e.isRefused) ∨
    fault = .unexpectedState ∧ last.Expired b ∧ b.adjustment? (.ofAttempt earlier.length) = none

/-- An attempt runs loops of the submodules of the block, and it does not finish exactly if one of
them expires. -/
theorem ensures_attemptBlock (h : Attempted b past [] earlier) :
    (attemptBlock b).Ensures (Paced b)
      (fun result past' => ∃ last, Attempted b past' last earlier ∧ Excused result past' ∧
        ∀ finished, result = .ok finished → (finished = false ↔ last.Expired b)) past := by
  refine (ensures_calibrateAll List.nodup_range (fun _ => List.mem_range.1) h.attempts
    h.settled).mono
    fun result past' ⟨new, hnew, hran⟩ => ⟨new, ⟨?_, hran.settled, ?_, h.expired, h.length⟩,
      hran.excused, hran.expired⟩
  · simpa using hran.attempts
  · exact List.forall_mem_cons.2 ⟨hnew, (List.forall_mem_cons.1 h.loops).2⟩

/-- What comes after an attempt comes only if it has expired. -/
theorem ensures_attempt_or {next : Procedure Unit} (h : Attempted b past [] earlier)
    (hnext : ∀ last past', Attempted b past' last earlier → last.Expired b →
      next.Ensures (Paced b)
        (fun result past' => ∃ last earlier, Concluded b result past' last earlier) past') :
    (attemptBlock b >>= fun finished => if finished then pure () else next).Ensures (Paced b)
      (fun result past' => ∃ last earlier, Concluded b result past' last earlier) past := by
  refine (ensures_attemptBlock h).bind (fun finished past₁ ⟨last, hlast, _, hexpired⟩ => ?_)
    fun fault past₁ ⟨last, hlast, hexcused, _⟩ => ⟨last, earlier, hlast, nofun, ?_⟩
  · replace hexpired := hexpired finished rfl
    split
    · next hfinished =>
      refine ⟨last, earlier, hlast, fun _ hlastExpired => ?_, nofun⟩
      simp [hexpired.2 hlastExpired] at hfinished
    · next hfinished => exact hnext last past₁ hlast (hexpired.1 (by simpa using hfinished))
  · rintro _ ⟨⟩
    exact .inl (hexcused fault rfl)

/-- A further attempt is made only after one that has expired, while a gain is left to lower. The
attempts before give the rung of the ladder that the gains are at. -/
theorem ensures_converge {gains : Gains} (hgains : gains = .ofAttempt earlier.length)
    (h : Attempted b past [] earlier) :
    (converge b gains).Ensures (Paced b)
      (fun result past' => ∃ last earlier, Concluded b result past' last earlier) past := by
  induction gains using b.adjustment_induction generalizing past earlier with
  | step gains ih =>
    cases hadjust : b.adjustment? gains with
    | none =>
      rw [converge_of_none hadjust]
      refine ensures_attempt_or h fun last past₁ hlast hexpired => ?_
      refine ensures_log_bind hlast.settled (ensures_log_bind (by simp [Paced, endsBusy]) ?_)
      refine ⟨last, earlier, ⟨?_, by simp [endsBusy], hlast.loops, hlast.expired, hlast.length⟩,
        nofun, ?_⟩
      · rw [attempts_append_singleton, attempts_append_singleton, hlast.attempts]
        rfl
      · rintro _ ⟨⟩
        exact .inr ⟨rfl, hexpired, hgains ▸ hadjust⟩
    | some a =>
      rw [converge_of_some hadjust]
      refine ensures_attempt_or h fun last past₁ hlast hexpired => ?_
      -- the adjustment is one inside the budget, so the attempts still are with the next one
      have hrung : b.adjustment? (.ofAttempt earlier.length) = some a := hgains ▸ hadjust
      have hretry : Attempted b (past₁ ++ [.note (.retrying a.stage a.gain)]) []
          (last :: earlier) := by
        refine ⟨by simp [hlast.attempts, Event.enter], by simp [endsBusy], ?_, ?_, ?_⟩
        · exact List.forall_mem_cons.2 ⟨.nil, hlast.loops⟩
        · exact List.forall_mem_cons.2 ⟨hexpired, hlast.expired⟩
        · exact (adjustment?_ofAttempt hrung).1
      have hset : (Gain.setDb a.stage a.gain).Emits (Plain b) :=
        emits_setDb (fun _ _ _ _ => trivial) (fun _ _ => rfl) (Block.adjusted_stage hadjust) a.gain
      have hnext : a.gains = .ofAttempt (last :: earlier).length := adjusted_gains hrung
      refine ensures_log_bind hlast.settled ?_
      refine (ensures_plain hretry.settled (Gain.careful_setDb (fun _ => trivial) _) hset).bind
        (fun _ _ hsteady => ih a hadjust hnext (hretry.steady hsteady))
        fun fault _ hsteady => ⟨[], last :: earlier, hretry.steady hsteady, nofun, ?_⟩
      rintro _ ⟨⟩
      exact .inl (hsteady.excused fault rfl)

/-! ## The whole calibration -/

/-- The first fault of two that are excused is excused. -/
theorem Excused.seq {first others : Except Fault Unit} (h : Excused first past)
    (h' : Excused others past') (hgrown : past <+: past') : Excused (first *> others) past' := by
  cases first with
  | ok u => exact h'
  | error fault =>
    rintro _ ⟨⟩
    obtain ⟨hio, e, he, href⟩ := h fault rfl
    exact ⟨hio, e, hgrown.subset he, href⟩

/-- Steps that run no loop, forced one after the other. -/
theorem ensures_forceAll_plain {steps : List (Procedure Unit)} (hsettled : endsBusy b past = false)
    (hc : ∀ p ∈ steps, p.Careful (fun _ _ => True) fun _ => False)
    (he : ∀ p ∈ steps, p.Emits (Plain b)) :
    (forceAll steps).Ensures (Paced b) (Steady b past) past := by
  induction steps generalizing past with
  | nil => exact ⟨List.prefix_refl _, rfl, hsettled, nofun⟩
  | cons p rest ih =>
    obtain ⟨hcp, hcrest⟩ := List.forall_mem_cons.1 hc
    obtain ⟨hep, herest⟩ := List.forall_mem_cons.1 he
    refine Ensures.forceAll_cons (ensures_plain hsettled hcp hep) fun first past₁ hfirst => ?_
    refine (ih hfirst.settled hcrest herest).mono fun others past₂ hothers => ?_
    exact ⟨hfirst.grown.trans hothers.grown, hothers.attempts.trans hfirst.attempts,
      hothers.settled, hfirst.excused.seq hothers.excused hothers.grown⟩

/-- What is forced after the attempts adds its refusals only. -/
theorem Concluded.seq {first others : Except Fault Unit}
    (h : Concluded b first past last earlier) (hothers : Steady b past others past') :
    Concluded b (first *> others) past' last earlier where
  attempted := h.attempted.steady hothers
  ok hok := by
    cases first with
    | ok u => exact h.ok rfl
    | error fault => cases hok
  error fault hfault := by
    cases first with
    | ok u => exact .inl (hothers.excused fault hfault)
    | error cause =>
      obtain rfl : cause = fault := Except.error.inj hfault
      rcases h.error cause rfl with ⟨hio, e, he, href⟩ | hnothing
      · exact .inl ⟨hio, e, hothers.grown.subset he, href⟩
      · exact .inr hnothing

/-- Setting up, all attempts and the clean-up. -/
theorem ensures_forced {backup : Backup} (h : Attempted b past [] [])
    (hknown : ∀ found, backup.frontEnd = some found → found.lnaGain ≠ .unknown) :
    (forceAll (setUpAndConverge b backup :: cleanUp b backup)).Ensures (Paced b)
      (fun result past' => ∃ last earlier, Concluded b result past' last earlier) past := by
  have hany : b.Allows fun _ _ => True := .of_all fun _ _ => trivial
  have hsetUp : (setUp b backup).Emits (Plain b) :=
    emits_setUp (fun _ haddress => plain_read (.inl haddress)) (fun _ _ _ _ => trivial)
      (fun _ _ => rfl) b backup
  have hcleanUp : ∀ p ∈ cleanUp b backup, p.Emits (Plain b) :=
    emits_cleanUp (fun _ haddress => plain_read (.inl haddress)) (fun _ _ _ _ => trivial)
      (fun _ _ => rfl) b backup
  have hbody : (setUpAndConverge b backup).Ensures (Paced b)
      (fun result past' => ∃ last earlier, Concluded b result past' last earlier) past := by
    -- the gains start at the top of the ladder, with no attempt behind them
    have hfirst : Gains.highest = .ofAttempt ([] : List Attempt).length := highest_eq
    refine (ensures_plain h.settled (careful_setUp hany backup) hsetUp).bind
      (fun _ _ hsteady => ensures_converge hfirst (h.steady hsteady)) fun fault _ hsteady =>
        ⟨[], [], h.steady hsteady, nofun, ?_⟩
    rintro _ ⟨⟩
    exact .inl (hsteady.excused fault rfl)
  refine Ensures.forceAll_cons hbody fun first past₁ ⟨last, earlier, hfirst⟩ => ?_
  exact (ensures_forceAll_plain hfirst.attempted.settled (careful_cleanUp hany hknown)
    hcleanUp).mono fun others past₂ hothers => ⟨last, earlier, hfirst.seq hothers⟩

/-- A value has been read from the LNA control whose gain mode is no setting. -/
def GainUnreadable (past : List Event) : Prop :=
  ∃ value, .read lnaControl (some value) ∈ past ∧
    Amplifier.LnaGain.ofBits (Rx.lnaGain.get value) = .unknown

/-- Reading the gain mode of the LNA fails if it is refused, or if the mode is no setting. -/
theorem ensures_readLna (hsettled : endsBusy b past = false) :
    Gain.readLna.Ensures (Paced b)
      (fun result past' => Steady b past (.ok () : Except Fault Unit) past' ∧
        ∀ fault, result = .error fault → (fault = .io ∧ ∃ e ∈ past', e.isRefused) ∨
          fault = .unexpectedState ∧ GainUnreadable past') past := by
  have hplain (answer : Option Byte) : Plain b (.read lnaControl answer) :=
    plain_read (.inl (by decide)) answer
  have hsteady (answer : Option Byte) :
      Steady b past (.ok () : Except Fault Unit) (past ++ [.read lnaControl answer]) :=
    ⟨List.prefix_append _ _, by rw [attempts_append_singleton, (hplain answer).enter],
      (hplain answer).endsBusy, nofun⟩
  rw [Gain.readLna_eq]
  rintro (_ | value)
  · refine ⟨(hplain none).paced hsettled, hsteady none, ?_⟩
    rintro _ ⟨⟩
    exact .inl ⟨rfl, _, List.mem_append_right _ (List.mem_singleton_self _), rfl⟩
  · refine ⟨(hplain (some value)).paced hsettled, ?_⟩
    show Ensures (Paced b) _ (if Amplifier.LnaGain.ofBits (Rx.lnaGain.get value) = .unknown then
      fail .unexpectedState else return Amplifier.LnaGain.ofBits (Rx.lnaGain.get value)) _
    split
    · next hunknown =>
      refine ⟨hsteady (some value), ?_⟩
      rintro _ ⟨⟩
      exact .inr ⟨rfl, value, List.mem_append_right _ (List.mem_singleton_self _), hunknown⟩
    · exact ⟨hsteady (some value), nofun⟩

/-- No loop has been run yet. A fault is due to a refused access, or to a gain mode of the LNA that
cannot be backed up. -/
structure Unattempted {α : Type} (b : Block) (result : Except Fault α) (past : List Event) :
    Prop where
  attempted : Attempted b past [] []
  error : ∀ fault, result = .error fault → (fault = .io ∧ ∃ e ∈ past, e.isRefused) ∨
    fault = .unexpectedState ∧ GainUnreadable past

/-- Before the first loop, a part without loops may come first. -/
theorem Attempted.bind {α β : Type} {p : Procedure α} {f : α → Procedure β}
    (h : Attempted b past [] []) (hc : p.Careful (fun _ _ => True) fun _ => False)
    (he : p.Emits (Plain b))
    (hf : ∀ a past', Attempted b past' [] [] → (f a).Ensures (Paced b) (Unattempted b) past') :
    (p >>= f).Ensures (Paced b) (Unattempted b) past := by
  refine (ensures_plain h.settled hc he).bind (fun a past' hsteady => hf a past' (h.steady hsteady))
    fun fault past' hsteady => ⟨h.steady hsteady, ?_⟩
  rintro _ ⟨⟩
  exact .inl (hsteady.excused fault rfl)

/-- Reading the front end can meet a gain mode that is no setting, and no other fault of its own. -/
theorem ensures_readFrontEnd (h : Attempted b past [] []) :
    readFrontEnd.Ensures (Paced b) (Unattempted b) past := by
  have hread (address : Address) (haddress : address ∈ setUpRegisters) :
      (readByte address).Emits (Plain b) := emits_readByte (plain_read (.inl haddress))
  have hdb (stage : DbStage) (hstage : stage.address ∈ setUpRegisters) :
      (Gain.readDb stage).Emits (Plain b) := (hread _ hstage).map _
  refine h.bind (careful_readByte _) (hread _ (by decide)) fun _ _ h => ?_
  refine h.bind (careful_readByte _) (hread _ (by decide)) fun _ _ h => ?_
  refine (ensures_readLna h.settled).bind (fun gain _ hgain => ?_) fun fault _ hgain =>
    ⟨h.steady hgain.1, ?_⟩
  · refine (h.steady hgain.1).bind (Gain.careful_readDb _) (hdb .rxvga1 (by decide)) fun _ _ h => ?_
    refine h.bind (Gain.careful_readDb _) (hdb .rxvga2 (by decide)) fun _ _ h => ?_
    exact ⟨h, nofun⟩
  · rintro _ ⟨⟩
    exact hgain.2 fault rfl

/-- Taking the backup runs no loop, and only the backup of the front end can fail unrefused. -/
theorem ensures_takeBackup (b : Block) :
    (takeBackup b).Ensures (Paced b)
      (fun result past' => Unattempted b result past' ∧
        (result = .error .unexpectedState → b.usesFrontEnd)) [] := by
  have hstart : Attempted b [] [] [] :=
    ⟨rfl, rfl, by simpa using .nil, by simp, b.attemptBudget_pos⟩
  have hclocks : (readByte clockEnable).Emits (Plain b) :=
    emits_readByte (plain_read (.inl (by decide)))
  refine (ensures_plain hstart.settled (careful_readByte _) hclocks).bind (fun clocks past₁ h => ?_)
    fun fault past₁ h => ⟨⟨hstart.steady h, ?_⟩, ?_⟩
  · split
    · next hb =>
      refine (ensures_readFrontEnd (hstart.steady h)).bind (fun found _ h => ?_) fun fault _ h => ?_
      · exact ⟨⟨h.attempted, nofun⟩, nofun⟩
      · refine ⟨⟨h.attempted, ?_⟩, fun _ => hb⟩
        rintro _ ⟨⟩
        exact h.error fault rfl
    · exact ⟨⟨hstart.steady h, nofun⟩, nofun⟩
  · rintro _ ⟨⟩
    exact .inl (h.excused fault rfl)
  · rintro ⟨⟩
    cases (h.excused _ rfl).1

end Attempts

/-- The attempts of a history are those that have been given up, and the one after them. -/
theorem length_attempts (b : Block) (events : List Event) :
    (attempts b events).length = retryCount events + 1 := by
  have hfold (acc : List Attempt) :
      (events.foldl (Event.enter b) acc).length = retryCount events + acc.length := by
    induction events generalizing acc with
    | nil => simp [retryCount]
    | cons e events ih =>
      have henter : (e.enter b acc).length = acc.length + if e.isRetry then 1 else 0 := by
        unfold Event.enter Event.isRetry
        split <;> grind
      have hcount : retryCount (e :: events) = retryCount events + if e.isRetry then 1 else 0 :=
        List.countP_cons
      rw [List.foldl_cons, ih, henter, hcount]
      omega
  exact hfold [[]]

/-- The codes of the gains stand for the gains. -/
theorem GainsAt.decode {k : Nat} (hk : k < 36) {r : RegisterFile} (h : GainsAt k r) :
    DbStage.rxvga1.decode (r.get rxvga1Gain) = rxvga1At k ∧
      DbStage.rxvga2.decode (r.get rxvga2Gain) = rxvga2At k := by
  rw [h.rxvga1, h.rxvga2]
  clear h
  revert k
  decide

/-- The gains of an attempt are in range, and in order: RXVGA2 is lowered only when RXVGA1 is at its
least, and for the receive filter never. -/
structure InOrder (b : Block) (k : Nat) : Prop where
  rxvga1 : DbStage.rxvga1.clamp (rxvga1At k) = rxvga1At k
  rxvga2 : DbStage.rxvga2.clamp (rxvga2At k) = rxvga2At k
  order : rxvga2At k < DbStage.rxvga2.high → rxvga1At k = DbStage.rxvga1.low
  rxLpf : b = .rxLpf → rxvga2At k = DbStage.rxvga2.high

/-- The gains are in order all through the budget. -/
theorem inOrder_of_lt {b : Block} {k : Nat} (h : k < b.attemptBudget) : InOrder b k := by
  have hk : k < 36 ∧ (b = .rxLpf → k < 26) := by
    cases b <;> simp only [Block.attemptBudget] at h <;> simp <;> omega
  refine ⟨?_, ?_, ?_, fun hb => ?_⟩ <;>
    simp only [DbStage.clamp, DbStage.low, DbStage.high, rxvga1At, rxvga2At]
  · omega
  · omega
  · omega
  · have := hk.2 hb
    omega

/-- A calibration keeps to its budgets, and to the pace of its polls. -/
theorem ensures_calibrate (b : Block) :
    (takeBackup b >>= fun backup =>
        forceAll (setUpAndConverge b backup :: cleanUp b backup)).Ensures (Paced b)
      (fun _ past' => ∃ last earlier, Attempted b past' last earlier) [] := by
  refine (ensures_takeBackup b).canReturn.bind (fun backup _ ⟨h, hcan⟩ => ?_) fun _ _ h =>
    ⟨[], [], h.1.1.attempted⟩
  have hknown (found : FrontEnd) (hfound : backup.frontEnd = some found) :
      found.lnaGain ≠ .unknown := lnaGain_ne_unknown (hcan backup rfl) hfound
  exact (ensures_forced h.1.attempted hknown).mono fun _ _ ⟨last, earlier, hlast⟩ =>
    ⟨last, earlier, hlast.attempted⟩

/-- How a calibration ends that has taken its backup: unless it is refused an access, well if its
last attempt has not expired, and else in a fault, with no gain left to lower. -/
theorem concluded_of_backup {σ : Type} (t : Transport σ) {b : Block} {s : σ} {backup : Backup}
    (hfound : ((takeBackup b).run t s).result = .ok backup) :
    ∃ last earlier, Concluded b ((calibrate b).run t s).result ((calibrate b).run t s).events last
      earlier := by
  have hbackup := ((ensures_takeBackup b).run t s).1
  have hknown (found : FrontEnd) (hfront : backup.frontEnd = some found) :
      found.lnaGain ≠ .unknown := lnaGain_ne_unknown (canReturn_of_run t hfound) hfront
  have hforced := (ensures_forced hbackup.1.attempted hknown).run t ((takeBackup b).run t s).state
  rw [run_calibrate, run_bind_of_ok t _ hfound]
  exact hforced.1

/-- A calibration keeps to its budgets, over every transport. Its attempts, loops and polls are
bounded, it makes a further attempt only after one has expired, and it pauses after a busy poll and
nowhere else. A block that is calibrated through the front end is started at the gains that its
attempt is due. If no access is refused, a calibration that has taken its backup ends well, unless
the last of all attempts has expired too, and it cannot fail to take one for any other reason than
the gain mode of the LNA. -/
theorem calibrate_within_budgets {σ : Type} (t : Transport σ) (b : Block) (s : σ) :
    let found := (takeBackup b).run t s
    let o := (calibrate b).run t s
    WithinBudget b o.events ∧
    ((∀ pre e post, o.events = pre ++ e :: post → Paced b pre e) ∧
      endsBusy b o.events = false) ∧
    (∀ pre value post, o.events = pre ++ .write (Dc.start b).address value true :: post →
      (Dc.start b).isSet value → b.usesFrontEnd →
      ∃ k < b.attemptBudget, (attempts b pre).length = k + 1 ∧ InOrder b k ∧
        ∀ r : RegisterFile,
          DbStage.rxvga1.decode ((r.after pre).get rxvga1Gain) = rxvga1At k ∧
          DbStage.rxvga2.decode ((r.after pre).get rxvga2Gain) = rxvga2At k) ∧
    ((∀ e ∈ o.events, e.isRefused = false) →
      (∀ backup, found.result = .ok backup → ∃ last earlier, attempts b o.events = last :: earlier ∧
        (last.Expired b → earlier.length + 1 = b.attemptBudget ∧
          b.adjustment? (.ofAttempt earlier.length) = none ∧
          o.result = .error .unexpectedState) ∧
        (¬ last.Expired b → o.result = .ok ())) ∧
      (∀ fault, found.result = .error fault → b.usesFrontEnd ∧ GainUnreadable o.events ∧
        attempts b o.events = [[]] ∧ o.result = .error .unexpectedState)) := by
  intro found o
  have hwhole := (ensures_calibrate b).run t s
  simp only [← run_calibrate, List.nil_append] at hwhole
  obtain ⟨⟨last, earlier, hattempted⟩, hpaced⟩ := hwhole
  refine ⟨hattempted.withinBudget, ⟨hpaced, hattempted.settled⟩, ?_, fun hrefused => ⟨?_, ?_⟩⟩
  · intro pre value post heq hstart hb
    -- the attempt of a START is the number of retries before it
    have hlt : retryCount pre < b.attemptBudget := by
      have hle : (attempts b o.events).length ≤ b.attemptBudget := hattempted.withinBudget.attempts
      rw [length_attempts, heq, retryCount_append] at hle
      omega
    have hk : b.attemptBudget ≤ 36 := b.attemptBudget_le
    refine ⟨retryCount pre, hlt, length_attempts b pre, inOrder_of_lt hlt, fun r => ?_⟩
    have hstarts := (leads_calibrate b r).run t s
    simp only [← run_calibrate, List.nil_append] at hstarts
    have hready := hstarts.2 pre _ post heq value rfl hstart
    exact (hready.prepared.gains hb).decode (by omega)
  · intro backup hfound
    obtain ⟨last, earlier, h⟩ := concluded_of_backup t hfound
    -- without a refusal only an expired last attempt can end in an error
    have hnorefusal : ¬ ∃ e ∈ o.events, e.isRefused := by
      rintro ⟨e, he, href⟩
      simp [hrefused e he] at href
    refine ⟨last, earlier, h.attempted.attempts, fun hexpired => ?_, fun hunexpired => ?_⟩
    · cases hresult : o.result with
      | ok u => exact (h.ok hresult hexpired).elim
      | error fault =>
        obtain ⟨-, hio⟩ | ⟨rfl, -, hleast⟩ := h.error fault hresult
        · exact (hnorefusal hio).elim
        · have hused : b.attemptBudget ≤ earlier.length + 1 := adjustment?_eq_none_iff.1 hleast
          exact ⟨Nat.le_antisymm h.attempted.length hused, hleast, rfl⟩
    · cases hresult : o.result with
      | ok u => rfl
      | error fault =>
        obtain ⟨-, hio⟩ | ⟨-, hexpired, -⟩ := h.error fault hresult
        · exact (hnorefusal hio).elim
        · exact (hunexpired hexpired).elim
  · intro fault hfound
    have hrun : o = ⟨.error fault, found.state, found.events⟩ := run_calibrate_of_error t hfound
    obtain ⟨h, hfront⟩ := ((ensures_takeBackup b).run t s).1
    rw [List.nil_append] at h
    obtain ⟨-, e, he, href⟩ | ⟨rfl, hgain⟩ := h.error fault hfound
    · have hmem : e ∈ o.events := by rwa [hrun]
      simp [hrefused e hmem] at href
    · rw [hrun]
      exact ⟨hfront hfound, hgain, h.attempted.attempts, rfl⟩

/-- Without an attempt that has expired, and with all gains left, a calibration can end in a fault
although no access is refused: here the gain mode of the LNA is none that could be backed up. -/
theorem calibrate_fails_unattempted :
    let c := { Chip.initial with registers := Chip.initialRegisters.set lnaControl 0x10 }
    let o := (calibrate .rxLpf).run (Chip.bus fun _ => false) (0, c)
    (∀ e ∈ o.events, e.isRefused = false) ∧ attempts .rxLpf o.events = [[]] ∧
      (attempts .rxLpf o.events).length < Block.rxLpf.attemptBudget ∧
      o.result = .error .unexpectedState := by
  refine ⟨by decide, by decide, by decide, rfl⟩

end Calibration

end Transceiver
