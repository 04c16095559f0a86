import Transceiver.Transport

/-!
# Runs of compound procedures

The run of a compound procedure is made of the runs of its parts: a bound procedure stops with the
fault of its first part or goes on where it ended, and `forceAll` runs its parts one after the
other, each from the state that the one before has left.
-/

namespace Transceiver.Procedure

variable {σ α β : Type} (t : Transport σ)

/-! ## Sequences -/

/-- After a fault nothing more is run. -/
theorem run_bind_of_error {p : Procedure α} {s : σ} {fault : Fault} (f : α → Procedure β)
    (h : (p.run t s).result = .error fault) :
    (p >>= f).run t s = ⟨.error fault, (p.run t s).state, (p.run t s).events⟩ := by
  rw [run_bind]
  rcases hp : p.run t s with ⟨result, s', events⟩
  rw [hp] at h
  subst h
  rfl

/-- What follows a result runs from the state that the first part leaves, and its events come after.
-/
theorem run_bind_of_ok {p : Procedure α} {s : σ} {a : α} (f : α → Procedure β)
    (h : (p.run t s).result = .ok a) :
    (p >>= f).run t s =
      ⟨((f a).run t (p.run t s).state).result, ((f a).run t (p.run t s).state).state,
        (p.run t s).events ++ ((f a).run t (p.run t s).state).events⟩ := by
  rw [run_bind]
  rcases hp : p.run t s with ⟨result, s', events⟩
  rw [hp] at h
  subst h
  rfl

theorem run_bind_of_eq {p : Procedure α} {s s' : σ} {a : α} {events : List Event}
    (f : α → Procedure β) (h : p.run t s = ⟨.ok a, s', events⟩) :
    (p >>= f).run t s =
      ⟨((f a).run t s').result, ((f a).run t s').state, events ++ ((f a).run t s').events⟩ := by
  rw [run_bind_of_ok t f (congrArg Outcome.result h), h]

/-- Changing the result changes nothing else about a run. -/
theorem run_map (f : α → β) (p : Procedure α) (s : σ) :
    (f <$> p).run t s = ⟨(p.run t s).result.map f, (p.run t s).state, (p.run t s).events⟩ := by
  rw [← bind_pure_comp, run_bind]
  rcases p.run t s with ⟨_ | _, s', events⟩
  · rfl
  · simp [Except.map]

/-- A sequence that ends well has parts that end well. -/
theorem run_bind_ok {p : Procedure α} {f : α → Procedure β} {s : σ} {b : β}
    (h : ((p >>= f).run t s).result = .ok b) :
    ∃ a, (p.run t s).result = .ok a ∧ ((f a).run t (p.run t s).state).result = .ok b ∧
      ((p >>= f).run t s).events =
        (p.run t s).events ++ ((f a).run t (p.run t s).state).events := by
  cases hr : (p.run t s).result with
  | error fault =>
    rw [run_bind_of_error t f hr] at h
    cases h
  | ok a =>
    rw [run_bind_of_ok t f hr] at h ⊢
    exact ⟨a, rfl, h, rfl⟩

/-- An event of a sequence happens in its first part, or after that has ended well. -/
theorem events_bind_split {p : Procedure α} {f : α → Procedure β} {s : σ} {pre post : List Event}
    {e : Event} (h : ((p >>= f).run t s).events = pre ++ e :: post) :
    (∃ post', (p.run t s).events = pre ++ e :: post') ∨
      ∃ a pre', (p.run t s).result = .ok a ∧ pre = (p.run t s).events ++ pre' ∧
        ((f a).run t (p.run t s).state).events = pre' ++ e :: post := by
  cases hr : (p.run t s).result with
  | error fault =>
    rw [run_bind_of_error t f hr] at h
    exact .inl ⟨post, h⟩
  | ok a =>
    rw [run_bind_of_ok t f hr] at h
    rcases List.append_eq_append_iff.1 h with ⟨pre', rfl, h'⟩ | ⟨mid, h', hmid⟩
    · exact .inr ⟨a, pre', rfl, rfl, h'⟩
    · -- the event is in the first part, unless that part ends right before it
      cases mid with
      | nil =>
        rw [List.append_nil] at h'
        exact .inr ⟨a, [], rfl, by rw [h', List.append_nil], hmid.symm⟩
      | cons x mid =>
        obtain rfl : e = x := (List.cons.inj hmid).1
        exact .inl ⟨mid, h'⟩

/-! ## What can be returned -/

/-- Some answers make the procedure return `a`. -/
def CanReturn : Procedure α → α → Prop
  | .done result, a => result = .ok a
  | .read _ next, a => ∃ answer, (next answer).CanReturn a
  | .write _ _ next, a => ∃ accepted, (next accepted).CanReturn a
  | .note _ next, a | .pause _ next, a => next.CanReturn a

@[simp] theorem canReturn_pure {a b : α} : (pure a : Procedure α).CanReturn b ↔ a = b := by
  show Except.ok a = Except.ok b ↔ _
  simp

@[simp] theorem not_canReturn_fail {fault : Fault} {a : α} :
    ¬ (fail fault : Procedure α).CanReturn a := by
  rintro ⟨⟩

/-- A sequence returns what its second part can return on something that the first can. -/
@[simp] theorem canReturn_bind {p : Procedure α} {f : α → Procedure β} {b : β} :
    (p >>= f).CanReturn b ↔ ∃ a, p.CanReturn a ∧ (f a).CanReturn b := by
  show (p.bind f).CanReturn b ↔ _
  induction p with
  | done result => cases result <;> simp [Procedure.bind, CanReturn]
  | read address next ih =>
    -- the answer to the read comes before the result of the first part
    simp only [Procedure.bind, CanReturn, ih]
    grind
  | write address value next ih =>
    simp only [Procedure.bind, CanReturn, ih]
    grind
  | note entry next ih => exact ih
  | pause microseconds next ih => exact ih

theorem CanReturn.map {p : Procedure α} {a : α} (h : p.CanReturn a) (f : α → β) :
    (f <$> p).CanReturn (f a) := by
  rw [← bind_pure_comp, canReturn_bind]
  exact ⟨a, h, canReturn_pure.2 rfl⟩

/-- What comes after a procedure matters for the results only that it can return. -/
theorem bind_congr_canReturn {p : Procedure α} {f g : α → Procedure β}
    (h : ∀ a, p.CanReturn a → f a = g a) : p >>= f = p >>= g := by
  show p.bind f = p.bind g
  induction p with
  | done result =>
    cases result with
    | ok a => exact h a rfl
    | error fault => rfl
  | read address next ih =>
    simp only [Procedure.bind]
    congr 1
    funext answer
    exact ih answer fun a ha => h a ⟨answer, ha⟩
  | write address value next ih =>
    simp only [Procedure.bind]
    congr 1
    funext accepted
    exact ih accepted fun a ha => h a ⟨accepted, ha⟩
  | note entry next ih => exact congrArg (Procedure.note entry) (ih h)
  | pause microseconds next ih => exact congrArg (Procedure.pause microseconds) (ih h)

/-- What a run returns can be returned. -/
theorem canReturn_of_run {p : Procedure α} {s : σ} {a : α} (h : (p.run t s).result = .ok a) :
    p.CanReturn a := by
  induction p generalizing s with
  | done result => exact h
  | read address next ih => exact ⟨_, ih _ h⟩
  | write address value next ih => exact ⟨_, ih _ h⟩
  | note entry next ih => exact ih h
  | pause microseconds next ih => exact ih h

/-! ## Forced sequences -/

/-- The runs of some procedures, one after the other. -/
def runEach : List (Procedure Unit) → σ → List (Outcome σ Unit)
  | [], _ => []
  | p :: rest, s => p.run t s :: runEach rest (p.run t s).state

/-- The state after the runs of some procedures, one after the other. -/
def stateAfter : List (Procedure Unit) → σ → σ
  | [], s => s
  | p :: rest, s => stateAfter rest (p.run t s).state

/-- The state is handed on from the first steps to the others. -/
theorem stateAfter_append (ps qs : List (Procedure Unit)) (s : σ) :
    stateAfter t (ps ++ qs) s = stateAfter t qs (stateAfter t ps s) := by
  induction ps generalizing s with
  | nil => rfl
  | cons p rest ih => exact ih _

/-- The first fault among some outcomes. -/
def firstFault (outcomes : List (Outcome σ Unit)) : Except Fault Unit :=
  outcomes.foldr (fun o rest => o.result *> rest) (.ok ())

@[simp] theorem run_forceAll_nil (s : σ) : (forceAll []).run t s = ⟨.ok (), s, []⟩ :=
  rfl

/-- The first step is run to its end, the others are run from where it has stopped, and a fault of
the first comes before theirs. -/
theorem run_forceAll_cons (p : Procedure Unit) (rest : List (Procedure Unit)) (s : σ) :
    (forceAll (p :: rest)).run t s =
      ⟨(p.run t s).result *> ((forceAll rest).run t (p.run t s).state).result,
        ((forceAll rest).run t (p.run t s).state).state,
        (p.run t s).events ++ ((forceAll rest).run t (p.run t s).state).events⟩ := by
  simp [forceAll, run_bind, run_attempt]

/-- As long as nothing fails, a forced sequence is a sequence like any other. -/
theorem run_forceAll_of_ok {p : Procedure Unit} {s : σ} {u : Unit} (rest : List (Procedure Unit))
    (h : (p.run t s).result = .ok u) :
    (forceAll (p :: rest)).run t s = (p >>= fun _ => forceAll rest).run t s := by
  rw [run_forceAll_cons, run_bind_of_ok t _ h, h]
  rfl

/-- All parts of a forced sequence are run, and the first fault of all is the result. -/
theorem run_forceAll (ps : List (Procedure Unit)) (s : σ) :
    (forceAll ps).run t s =
      ⟨firstFault (runEach t ps s), stateAfter t ps s, (runEach t ps s).flatMap (·.events)⟩ := by
  -- the state is generalized, since every part is run from where the one before has ended
  induction ps generalizing s with
  | nil => rfl
  | cons p rest ih =>
    rw [run_forceAll_cons, ih]
    rfl

theorem run_forceAll_singleton (p : Procedure Unit) (s : σ) :
    (forceAll [p]).run t s = p.run t s := by
  rw [run_forceAll_cons]
  rcases p.run t s with ⟨_ | _, s', events⟩ <;> simp <;> rfl

/-- Steps can be forced in two batches, one after the other. -/
theorem run_forceAll_append (ps qs : List (Procedure Unit)) (s : σ) :
    (forceAll (ps ++ qs)).run t s =
      ⟨((forceAll ps).run t s).result *> ((forceAll qs).run t ((forceAll ps).run t s).state).result,
        ((forceAll qs).run t ((forceAll ps).run t s).state).state,
        ((forceAll ps).run t s).events ++
          ((forceAll qs).run t ((forceAll ps).run t s).state).events⟩ := by
  induction ps generalizing s with
  | nil => simp; rfl
  | cons p rest ih =>
    rw [List.cons_append, run_forceAll_cons, run_forceAll_cons, ih]
    simp only [List.append_assoc]
    rcases (p.run t s).result with _ | _ <;> rfl

end Transceiver.Procedure
