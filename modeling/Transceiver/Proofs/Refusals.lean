import Transceiver.Proofs.Runs

/-!
# Refusals

A careful procedure ends in `Fault.io` at the first access that is refused, and never in `Fault.io`
otherwise. Carefulness is a property of the tree, so it is shown part by part, without a transport.

Operations that clean up are not careful: `forceAll` goes on after a refusal. Their runs are orderly
instead. The fault that arose first is reported, and what is done after it is a part of the
clean-up. An operation can also have failed in `Fault.unexpectedState` when its clean-up is refused;
it has raised an alarm then, a note that stands in its journal before the refusal.
-/

namespace Transceiver

/-- Whether a note says that the operation under way ends in `Fault.unexpectedState`. -/
def Note.isAlarm : Note → Bool
  | .invalidVoltage _ | .searchFailed | .middleFailed _ | .invalidPowerAmp _ _
  | .invalidFilterMode _ _ | .calibrationFailed _ => true
  | .clampedFrequency _ | .dividers _ _ | .modulatorsFailed | .foundNormal _ | .tooHigh _ _
  | .tooLow _ _ | .lowerLimit _ | .upperLimit _ | .middle _ | .dumped _ _ | .dumpFailed _
  | .clampedGain _ _ | .settingLoopback _ | .calibrating _ _ | .calibrated _ | .loopTimedOut
  | .suspectValue | .keptBadValue | .retrying _ _ | .retriesExhausted => false

namespace Event

/-- Whether the event is an alarm, a note that the operation under way ends in
`Fault.unexpectedState`. -/
def isAlarm : Event → Bool
  | .note entry => entry.isAlarm
  | .read _ _ | .write _ _ _ | .pause _ => false

/-- Whether the event is neither a refused access nor an alarm. -/
def isCalm (e : Event) : Bool :=
  !e.isRefused && !e.isAlarm

/-- The fault that a refused access or an alarm stands for. -/
def fault (e : Event) : Fault :=
  if e.isAlarm then .unexpectedState else .io

end Event

namespace Procedure

variable {σ α β : Type} {W : Address → Byte → Prop} {silent : Fault → Prop}

/-- The procedure ends in `fault` without another access. -/
def GivesUp (fault : Fault) : Procedure α → Prop
  | .done result => result = .error fault
  | .read _ _ | .write _ _ _ => False
  | .note _ next | .pause _ next => next.GivesUp fault

/-- Whatever it is answered, the procedure writes only what `W` allows, gives up when an access is
refused or an alarm is raised, and otherwise ends well or in one of the faults `silent`. -/
def Careful (W : Address → Byte → Prop) (silent : Fault → Prop) : Procedure α → Prop
  | .done result => ∀ fault, result = .error fault → silent fault
  | .read _ next => (next none).GivesUp .io ∧ ∀ value, (next (some value)).Careful W silent
  | .write address value next =>
    W address value ∧ (next false).GivesUp .io ∧ (next true).Careful W silent
  | .note entry next =>
    if entry.isAlarm then next.GivesUp .unexpectedState else next.Careful W silent
  | .pause _ next => next.Careful W silent

/-! ## Careful procedures are made of careful ones -/

/-- Nothing comes after a procedure that gives up. -/
theorem GivesUp.bind {fault : Fault} {p : Procedure α} (hp : p.GivesUp fault)
    (f : α → Procedure β) : (p >>= f).GivesUp fault := by
  show (p.bind f).GivesUp fault
  induction p with
  | done result =>
    obtain rfl : result = .error fault := hp
    rfl
  | read address next ih => exact hp.elim
  | write address value next ih => exact hp.elim
  | note entry next ih => exact ih hp
  | pause microseconds next ih => exact ih hp

/-- A sequence is careful if its first part is, and its second on whatever the first can return. -/
theorem Careful.bind {p : Procedure α} {f : α → Procedure β} (hp : p.Careful W silent)
    (hf : ∀ a, p.CanReturn a → (f a).Careful W silent) : (p >>= f).Careful W silent := by
  show (p.bind f).Careful W silent
  induction p with
  | done result =>
    cases result with
    | ok a => exact hf a rfl
    | error fault =>
      rintro _ ⟨⟩
      exact hp fault rfl
  | read address next ih =>
    exact ⟨hp.1.bind f, fun value => ih _ (hp.2 value) fun a ha => hf a ⟨some value, ha⟩⟩
  | write address value next ih =>
    exact ⟨hp.1, hp.2.1.bind f, ih _ hp.2.2 fun a ha => hf a ⟨true, ha⟩⟩
  | note entry next ih =>
    -- after an alarm there is nothing left to go on to
    unfold Careful at hp
    show if entry.isAlarm then (next.bind f).GivesUp .unexpectedState
      else (next.bind f).Careful W silent
    split at hp
    · next h =>
      rw [if_pos h]
      exact hp.bind f
    · next h =>
      rw [if_neg h]
      exact ih hp hf
  | pause microseconds next ih => exact ih hp hf

theorem careful_pure (a : α) : (pure a : Procedure α).Careful W silent := by
  rintro fault ⟨⟩

/-- Only a fault that may be silent comes without an alarm. -/
theorem careful_fail {fault : Fault} (h : silent fault) :
    (fail fault : Procedure α).Careful W silent := by
  rintro _ ⟨⟩
  exact h

theorem careful_log {entry : Note} (h : entry.isAlarm = false) :
    (log entry).Careful W silent := by
  show if entry.isAlarm then _ else _
  simpa [h] using careful_pure ()

/-- An alarm is followed by its fault. -/
theorem careful_alarm {entry : Note} (h : entry.isAlarm) :
    (log entry >>= fun _ => (fail .unexpectedState : Procedure α)).Careful W silent := by
  show if entry.isAlarm then _ else _
  simp only [h, if_true]
  rfl

theorem careful_wait (microseconds : Nat) : (wait microseconds).Careful W silent := by
  show (pure () : Procedure Unit).Careful W silent
  exact careful_pure ()

/-- A read that is refused ends in the fault at once. -/
theorem careful_readByte (address : Address) : (readByte address).Careful W silent :=
  ⟨rfl, fun value => careful_pure value⟩

theorem careful_writeByte {address : Address} {value : Byte} (h : W address value) :
    (writeByte address value).Careful W silent :=
  ⟨h, rfl, careful_pure ()⟩

/-- A register is changed with care if every byte that this can write is allowed. -/
theorem careful_modify {address : Address} {change : Byte → Byte}
    (h : ∀ old, W address (change old)) : (modify address change).Careful W silent :=
  (careful_readByte address).bind fun old _ => careful_writeByte (h old)

theorem careful_load {w : Nat} (field : BitField w) : (load field).Careful W silent :=
  (careful_readByte field.address).bind fun _ _ => careful_pure _

theorem careful_assign {w : Nat} {field : BitField w} {value : BitVec w}
    (h : ∀ old, W field.address (field.set old value)) :
    (assign field value).Careful W silent :=
  careful_modify h

theorem careful_put {flag : Flag} {on : Bool} (h : ∀ old, W flag.address (flag.put old on)) :
    (put flag on).Careful W silent :=
  careful_modify h

theorem Careful.map {p : Procedure α} (hp : p.Careful W silent) (f : α → β) :
    (f <$> p).Careful W silent := by
  rw [← bind_pure_comp]
  exact hp.bind fun a _ => careful_pure (f a)

end Procedure

/-! ## Runs of careful procedures -/

/-- The ways in which the run of a careful procedure can go: without a refused access or an alarm,
or up to the first of these. -/
inductive Outcome.Careful {σ α : Type} (silent : Fault → Prop) (o : Outcome σ α) : Prop where
  | calm (events : ∀ e ∈ o.events, e.isCalm)
    (result : ∀ fault, o.result = .error fault → silent fault)
  | failed (pre : List Event) (e : Event) (post : List Event)
    (events : o.events = pre ++ e :: post) (calm : ∀ e ∈ pre, e.isCalm)
    (failure : e.isCalm = false) (rest : ∀ e ∈ post, e.isAccess = false)
    (result : o.result = .error e.fault)

/-- A calm event in front leaves an outcome careful. -/
theorem Outcome.Careful.cons {σ α : Type} {silent : Fault → Prop} {result : Except Fault α} {s : σ}
    {events : List Event} {e : Event} (he : e.isCalm)
    (h : (⟨result, s, events⟩ : Outcome σ α).Careful silent) :
    (⟨result, s, e :: events⟩ : Outcome σ α).Careful silent := by
  cases h with
  | calm calm result => exact .calm (by simpa [he] using calm) result
  | failed pre e' post events calm failure rest result =>
    refine .failed (e :: pre) e' post ?_ (by simpa [he] using calm) failure rest result
    simpa using events

namespace Procedure

variable {σ α β : Type} {W : Address → Byte → Prop} {silent : Fault → Prop}

/-- A procedure that gives up makes no more accesses and ends in its fault, over any transport. -/
theorem GivesUp.run {fault : Fault} {p : Procedure α} (h : p.GivesUp fault) (t : Transport σ)
    (s : σ) : (p.run t s).result = .error fault ∧ ∀ e ∈ (p.run t s).events, e.isAccess = false := by
  induction p with
  | done result => exact ⟨h, by simp [Procedure.run]⟩
  | read address next ih => exact h.elim
  | write address value next ih => exact h.elim
  | note entry next ih => simpa [Procedure.run, Event.isAccess] using ih h
  | pause microseconds next ih => simpa [Procedure.run, Event.isAccess] using ih h

/-- Every run of a careful procedure is careful. -/
theorem Careful.run {p : Procedure α} (h : p.Careful W silent) (t : Transport σ) (s : σ) :
    (p.run t s).Careful silent := by
  -- after a failure there is only the end of the procedure, which makes no access
  induction p generalizing s with
  | done result => exact .calm (by simp [Procedure.run]) h
  | read address next ih =>
    rcases ht : t.read address s with ⟨_ | value, s'⟩
    · obtain ⟨hr, he⟩ := h.1.run t s'
      simp only [Procedure.run, ht]
      exact .failed [] _ _ rfl (by simp) rfl he hr
    · simp only [Procedure.run, ht]
      exact (ih _ (h.2 value) s').cons rfl
  | write address value next ih =>
    rcases ht : t.write address value s with ⟨_ | _, s'⟩
    · obtain ⟨hr, he⟩ := h.2.1.run t s'
      simp only [Procedure.run, ht]
      exact .failed [] _ _ rfl (by simp) rfl he hr
    · simp only [Procedure.run, ht]
      exact (ih _ h.2.2 s').cons rfl
  | note entry next ih =>
    unfold Careful at h
    simp only [Procedure.run]
    split at h
    · next ha =>
      obtain ⟨hr, he⟩ := h.run t s
      refine .failed [] (.note entry) _ rfl (by simp) ?_ he ?_
      · simp [Event.isCalm, Event.isAlarm, ha]
      · simpa [Event.fault, Event.isAlarm, ha] using hr
    · next ha => exact (ih h s).cons (by simp_all [Event.isCalm, Event.isRefused, Event.isAlarm])
  | pause microseconds next ih =>
    simp only [Procedure.run]
    exact (ih h s).cons rfl

end Procedure

/-! ## Orderly runs -/

/-- The accesses among some events are those of the last steps of a clean-up. -/
def Event.CleanUp {σ : Type} (t : Transport σ) (cleanUp : List (Procedure Unit))
    (events : List Event) : Prop :=
  ∃ steps, steps <:+ cleanUp ∧ ∃ s,
    events.filter Event.isAccess =
      ((Procedure.forceAll steps).run t s).events.filter Event.isAccess

/-- A run in which no failure is swallowed, invented or retried: the first one is the result, and
after it, as after the first refused access, nothing is done but a clean-up. -/
structure Outcome.Orderly {σ α : Type} (t : Transport σ) (cleanUp : List (Procedure Unit))
    (o : Outcome σ α) : Prop where
  calm : ∀ a, o.result = .ok a → ∀ e ∈ o.events, e.isCalm
  io : o.result = .error .io → ∃ e ∈ o.events, e.isRefused
  valid : o.result ≠ .error .invalidArgument
  failure : ∀ pre e post, o.events = pre ++ e :: post → (∀ e' ∈ pre, e'.isCalm) →
    e.isCalm = false → o.result = .error e.fault ∧ Event.CleanUp t cleanUp post
  refusal : ∀ pre e post, o.events = pre ++ e :: post → (∀ e' ∈ pre, e'.isRefused = false) →
    e.isRefused → Event.CleanUp t cleanUp post

namespace Event

theorem isRefused_eq_false {e : Event} (h : e.isCalm) : e.isRefused = false := by
  simp_all [isCalm]

theorem isRefused_of_isAccess_eq_false {e : Event} (h : e.isAccess = false) :
    e.isRefused = false := by
  cases e with
  | read _ _ | write _ _ _ => cases h
  | note _ | pause _ => rfl

/-- A refused access is not calm. -/
theorem isCalm_of_isRefused {e : Event} (h : e.isRefused) : e.isCalm = false := by
  simp [isCalm, h]

/-- The first event with a property can be found in only one place. -/
theorem first_unique {p : Event → Bool} {pre pre' post post' : List Event} {e e' : Event}
    (h : pre ++ e :: post = pre' ++ e' :: post') (hpre : ∀ x ∈ pre, p x = false) (he : p e)
    (hpre' : ∀ x ∈ pre', p x = false) (he' : p e') : pre = pre' ∧ e = e' ∧ post = post' := by
  -- both lists are walked in step; whichever ends first ends at an event with the property
  induction pre generalizing pre' with
  | nil =>
    cases pre' with
    | nil => simpa using h
    | cons x pre' =>
      have hx : e = x := (List.cons.inj h).1
      simp [hx, hpre' x] at he
  | cons x pre ih =>
    cases pre' with
    | nil =>
      have hx : x = e' := (List.cons.inj h).1
      simp [← hx, hpre x] at he'
    | cons x' pre' =>
      simp only [List.cons_append, List.cons.injEq] at h
      obtain ⟨h1, h2, h3⟩ := ih h.2 (fun y hy => hpre y (List.mem_cons_of_mem _ hy))
        fun y hy => hpre' y (List.mem_cons_of_mem _ hy)
      exact ⟨by rw [h.1, h1], h2, h3⟩

/-- An event with a property comes after those that do not have it. -/
theorem in_right {p : Event → Bool} {left right pre post : List Event} {e : Event}
    (h : left ++ right = pre ++ e :: post) (hl : ∀ x ∈ left, p x = false) (he : p e) :
    ∃ pre', pre = left ++ pre' ∧ right = pre' ++ e :: post := by
  rcases List.append_eq_append_iff.1 h with ⟨pre', rfl, rfl⟩ | ⟨mid, rfl, hmid⟩
  · exact ⟨pre', rfl, rfl⟩
  · cases mid with
    | nil => exact ⟨[], by simp, by simpa using hmid.symm⟩
    | cons x mid =>
      obtain rfl : e = x := by simpa using (List.cons.inj hmid).1
      simp_all

/-- Events without an access are what an empty rest of a clean-up leaves. -/
theorem CleanUp.of_no_access {σ : Type} {t : Transport σ} {cleanUp : List (Procedure Unit)}
    {events : List Event} (h : ∀ e ∈ events, e.isAccess = false) (s : σ) :
    CleanUp t cleanUp events :=
  ⟨[], List.nil_suffix, s, by simpa [List.filter_eq_nil_iff] using h⟩

/-- The rest of a clean-up is also the rest of a longer one that ends in it. -/
theorem CleanUp.mono {σ : Type} {t : Transport σ} {cleanUp cleanUp' : List (Procedure Unit)}
    {events : List Event} (h : CleanUp t cleanUp events) (hc : cleanUp <:+ cleanUp') :
    CleanUp t cleanUp' events := by
  obtain ⟨steps, hsteps, rest⟩ := h
  exact ⟨steps, hsteps.trans hc, rest⟩

end Event

namespace Outcome.Orderly

variable {σ α β : Type} {t : Transport σ} {cleanUp : List (Procedure Unit)}

/-- A careful outcome needs no clean-up. -/
theorem of_careful {silent : Fault → Prop} {o : Outcome σ α} (h : o.Careful silent)
    (hio : ¬ silent .io) (hvalid : ¬ silent .invalidArgument) : o.Orderly t cleanUp := by
  -- a careful run goes through, or breaks off at its first failure
  cases h with
  | calm events result =>
    refine ⟨fun _ _ => events, fun h => (hio (result _ h)).elim, fun h => hvalid (result _ h),
      fun pre e post heq _ he => ?_, fun pre e post heq _ he => ?_⟩
    · have := events e (by simp [heq])
      simp_all
    · have := Event.isRefused_eq_false (events e (by simp [heq]))
      simp_all
  | failed pre e post events calm failure rest result =>
    have hfault : e.fault = .io ∨ e.fault = .unexpectedState := by
      unfold Event.fault
      split <;> simp
    refine ⟨by simp [result], fun h => ⟨e, by simp [events], ?_⟩, ?_,
      fun pre' e' post' heq hpre' he' => ?_, fun pre' e' post' heq hpre' he' => ?_⟩
    · have hio : e.fault = .io := by simpa [result] using h
      have ha : e.isAlarm = false := by simpa [Event.fault] using hio
      simpa [Event.isCalm, ha] using failure
    · rcases hfault with h | h <;> simp [result, h]
    · obtain ⟨rfl, rfl, rfl⟩ := Event.first_unique (p := fun e => !e.isCalm)
        (events.symm.trans heq) (by simpa using calm) (by simpa using failure)
        (by simpa using hpre') (by simpa using he')
      exact ⟨result, .of_no_access rest o.state⟩
    · -- a refused access is no earlier than the failure, and nothing is accessed after that
      have hpre : ∀ x ∈ pre, x.isRefused = false :=
        fun x hx => Event.isRefused_eq_false (calm x hx)
      obtain ⟨mid, rfl, hmid⟩ := Event.in_right (events.symm.trans heq) hpre he'
      cases mid with
      | nil =>
        obtain ⟨rfl, rfl⟩ := List.cons.inj hmid
        exact .of_no_access rest o.state
      | cons x mid =>
        have hmem : e' ∈ post := by simp [(List.cons.inj hmid).2]
        have := Event.isRefused_of_isAccess_eq_false (rest e' hmem)
        simp_all

theorem mono {cleanUp' : List (Procedure Unit)} {o : Outcome σ α} (h : o.Orderly t cleanUp)
    (hc : cleanUp <:+ cleanUp') : o.Orderly t cleanUp' := by
  refine ⟨h.calm, h.io, h.valid, fun pre e post heq hpre he => ?_, fun pre e post heq hpre he => ?_⟩
  · obtain ⟨hr, hrest⟩ := h.failure pre e post heq hpre he
    exact ⟨hr, hrest.mono hc⟩
  · exact (h.refusal pre e post heq hpre he).mono hc

/-- Orderly parts make an orderly whole, with the same clean-up for both. -/
theorem bind {p : Procedure α} {f : α → Procedure β} {s : σ} (hp : (p.run t s).Orderly t cleanUp)
    (hf : ∀ a, (p.run t s).result = .ok a →
      ((f a).run t (p.run t s).state).Orderly t cleanUp) :
    ((p >>= f).run t s).Orderly t cleanUp := by
  cases hr : (p.run t s).result with
  | error fault =>
    rw [Procedure.run_bind_of_error t f hr]
    refine ⟨by simp, fun h => hp.io ?_, fun h => hp.valid ?_, fun pre e post heq hpre he => ?_,
      hp.refusal⟩
    · simpa [hr] using h
    · simpa [hr] using h
    · obtain ⟨h, rest⟩ := hp.failure pre e post heq hpre he
      exact ⟨by simpa [hr] using h, rest⟩
  | ok a =>
    -- the first part has gone well, so every failure is one of the second part
    rw [Procedure.run_bind_of_ok t f hr]
    have calm := hp.calm a hr
    have ha := hf a hr
    refine ⟨fun b hb e he => ?_, fun h => ?_, ha.valid, fun pre e post heq hpre he => ?_,
      fun pre e post heq hpre he => ?_⟩
    · rcases List.mem_append.1 he with he | he
      · exact calm e he
      · exact ha.calm b hb e he
    · obtain ⟨e, he, href⟩ := ha.io h
      exact ⟨e, List.mem_append_right _ he, href⟩
    · obtain ⟨pre', rfl, heq'⟩ := Event.in_right (p := fun e => !e.isCalm) heq
        (by simpa using calm) (by simpa using he)
      exact ha.failure pre' e post heq' (fun x hx => hpre x (List.mem_append_right _ hx)) he
    · obtain ⟨pre', rfl, heq'⟩ := Event.in_right heq
        (fun x hx => Event.isRefused_eq_false (calm x hx)) he
      exact ha.refusal pre' e post heq' (fun x hx => hpre x (List.mem_append_right _ hx)) he

/-- Forcing careful procedures is orderly: the first one counts as the operation, the others as its
clean-up. -/
theorem forceAll {W : Address → Byte → Prop} {ps : List (Procedure Unit)}
    (h : ∀ p ∈ ps, p.Careful W fun _ => False) (s : σ) :
    ((Procedure.forceAll ps).run t s).Orderly t ps.tail := by
  induction ps generalizing s with
  | nil =>
    have hp : (pure () : Procedure Unit).Careful W fun _ => False := Procedure.careful_pure ()
    exact of_careful (hp.run t s) id id
  | cons p rest ih =>
    have hrest := (ih (fun q hq => h q (List.mem_cons_of_mem _ hq)) (p.run t s).state).mono
      (List.tail_suffix rest)
    have hp := (h p List.mem_cons_self).run t s
    have horderly : (p.run t s).Orderly t rest := of_careful hp id id
    rw [List.tail_cons]
    cases hr : (p.run t s).result with
    | ok u =>
      rw [Procedure.run_forceAll_of_ok t rest hr]
      exact bind horderly fun _ _ => hrest
    | error fault =>
      -- a careful procedure that fails has come to a refused access or an alarm
      cases hp with
      | calm calm result => exact (result fault hr).elim
      | failed pre e post events calm failure after result =>
        -- whatever follows is the rest of the sequence, forced from the state after the failure
        have hall : Event.CleanUp t rest
            (post ++ ((Procedure.forceAll rest).run t (p.run t s).state).events) := by
          refine ⟨rest, List.suffix_rfl, (p.run t s).state, ?_⟩
          have hnil : post.filter Event.isAccess = [] := by
            simpa [List.filter_eq_nil_iff] using after
          rw [List.filter_append, hnil, List.nil_append]
        rw [Procedure.run_forceAll_cons, result, events]
        simp only [List.append_assoc, List.cons_append]
        refine ⟨by rintro _ ⟨⟩, fun hio => ?_, ?_, fun pre' e' post' heq hpre' he' => ?_,
          fun pre' e' post' heq hpre' he' => ?_⟩
        · obtain ⟨e', he', href⟩ := horderly.io (by rw [result]; exact hio)
          rw [events] at he'
          refine ⟨e', ?_, href⟩
          simpa [or_assoc] using Or.inl he'
        · intro hvalid
          exact horderly.valid (by rw [result]; exact hvalid)
        · obtain ⟨rfl, rfl, rfl⟩ := Event.first_unique (p := fun e => !e.isCalm) heq
            (by simpa using calm) (by simpa using failure) (by simpa using hpre')
            (by simpa using he')
          exact ⟨rfl, hall⟩
        · by_cases href : e.isRefused
          · obtain ⟨rfl, rfl, rfl⟩ := Event.first_unique heq
              (fun x hx => Event.isRefused_eq_false (calm x hx)) href hpre' he'
            exact hall
          · -- the refusal comes after an alarm, in the clean-up itself
            have hleft : ∀ x ∈ pre ++ e :: post, x.isRefused = false := by
              intro x hx
              rcases List.mem_append.1 hx with hx | hx
              · exact Event.isRefused_eq_false (calm x hx)
              · rcases List.mem_cons.1 hx with rfl | hx
                · simpa using href
                · exact Event.isRefused_of_isAccess_eq_false (after x hx)
            rw [← List.cons_append, ← List.append_assoc] at heq
            obtain ⟨pre'', rfl, heq'⟩ := Event.in_right heq hleft he'
            exact hrest.refusal pre'' e' post' heq'
              (fun x hx => hpre' x (List.mem_append_right _ hx)) he'

end Outcome.Orderly

end Transceiver
