import Transceiver.Proofs.Refusals

/-!
# What a procedure can write

Which registers an operation writes, and what it writes there, can be read off its tree: a bound on
the writes holds of a compound procedure when it holds of its parts, and then of every run over
every transport. A procedure that is only bound after some result need not obey the bound after a
result that its first part cannot return.
-/

namespace Transceiver

/-- Whether the event is a write, accepted or not. -/
def Event.isWrite : Event → Bool
  | .write _ _ _ => true
  | .read _ _ | .note _ | .pause _ => false

namespace Procedure

variable {σ α β : Type} {W W' : Address → Byte → Prop}

/-- Every write that the procedure can come to, whatever it is answered, satisfies `W`. -/
def WritesOnly (W : Address → Byte → Prop) : Procedure α → Prop
  | .done _ => True
  | .read _ next => ∀ answer, (next answer).WritesOnly W
  | .write address value next => W address value ∧ ∀ accepted, (next accepted).WritesOnly W
  | .note _ next | .pause _ next => next.WritesOnly W

/-- A procedure that writes only what is allowed does so if more is allowed. -/
theorem WritesOnly.mono {p : Procedure α} (h : p.WritesOnly W)
    (hW : ∀ address value, W address value → W' address value) : p.WritesOnly W' := by
  induction p with
  | done result => trivial
  | read address next ih => exact fun answer => ih answer (h answer)
  | write address value next ih =>
    exact ⟨hW _ _ h.1, fun accepted => ih accepted (h.2 accepted)⟩
  | note entry next ih => exact ih h
  | pause microseconds next ih => exact ih h

@[simp] theorem writesOnly_pure (a : α) : (pure a : Procedure α).WritesOnly W :=
  trivial

@[simp] theorem writesOnly_fail (fault : Fault) : (fail fault : Procedure α).WritesOnly W :=
  trivial

@[simp] theorem writesOnly_ofExcept (result : Except Fault α) : (ofExcept result).WritesOnly W :=
  trivial

@[simp] theorem writesOnly_log (entry : Note) : (log entry).WritesOnly W :=
  trivial

@[simp] theorem writesOnly_wait (microseconds : Nat) : (wait microseconds).WritesOnly W :=
  trivial

/-- A sequence writes only what is allowed exactly if both parts do, the second on whatever the
first can return. -/
@[simp] theorem writesOnly_bind {p : Procedure α} {f : α → Procedure β} :
    (p >>= f).WritesOnly W ↔ p.WritesOnly W ∧ ∀ a, p.CanReturn a → (f a).WritesOnly W := by
  show (p.bind f).WritesOnly W ↔ _
  induction p with
  | done result => cases result <;> simp [Procedure.bind, WritesOnly, CanReturn]
  | read address next ih =>
    simp only [Procedure.bind, WritesOnly, CanReturn, ih]
    grind
  | write address value next ih =>
    simp only [Procedure.bind, WritesOnly, CanReturn, ih]
    grind
  | note entry next ih => exact ih
  | pause microseconds next ih => exact ih

@[simp] theorem writesOnly_map {p : Procedure α} {f : α → β} :
    (f <$> p).WritesOnly W ↔ p.WritesOnly W := by
  rw [← bind_pure_comp, writesOnly_bind]
  simp only [writesOnly_pure, implies_true, and_true]

/-- Holding a fault back writes nothing. -/
@[simp] theorem writesOnly_attempt {p : Procedure α} :
    p.attempt.WritesOnly W ↔ p.WritesOnly W := by
  induction p with
  | done result => rfl
  | read address next ih => simp [Procedure.attempt, WritesOnly, ih]
  | write address value next ih => simp [Procedure.attempt, WritesOnly, ih]
  | note entry next ih => exact ih
  | pause microseconds next ih => exact ih

/-- Forced steps write what each of them writes. -/
@[simp] theorem WritesOnly.forceAll {ps : List (Procedure Unit)} (h : ∀ p ∈ ps, p.WritesOnly W) :
    (forceAll ps).WritesOnly W := by
  induction ps with
  | nil => trivial
  | cons p rest ih =>
    have hp := h p List.mem_cons_self
    have hrest := ih fun q hq => h q (List.mem_cons_of_mem _ hq)
    simp [Procedure.forceAll, hp, hrest]

@[simp] theorem writesOnly_readByte (address : Address) : (readByte address).WritesOnly W := by
  rintro (_ | value) <;> trivial

@[simp] theorem writesOnly_writeByte (address : Address) (value : Byte) :
    (writeByte address value).WritesOnly W ↔ W address value := by
  refine ⟨fun h => h.1, fun h => ⟨h, ?_⟩⟩
  rintro (_ | _) <;> trivial

/-- A change writes what it makes of whatever it reads. -/
@[simp] theorem writesOnly_modify (address : Address) (change : Byte → Byte) :
    (modify address change).WritesOnly W ↔ ∀ old, W address (change old) := by
  constructor
  · intro h old
    exact (h (some old)).1
  · intro h
    simp [modify, h]

@[simp] theorem writesOnly_load {w : Nat} (field : BitField w) : (load field).WritesOnly W := by
  simp [load]

@[simp] theorem writesOnly_assign {w : Nat} (field : BitField w) (value : BitVec w) :
    (assign field value).WritesOnly W ↔ ∀ old, W field.address (field.set old value) := by
  simp [assign]

@[simp] theorem writesOnly_put (flag : Flag) (on : Bool) :
    (put flag on).WritesOnly W ↔ ∀ old, W flag.address (flag.put old on) := by
  simp [put]

/-- A procedure that gives up writes nothing. -/
theorem GivesUp.writesOnly {fault : Fault} {p : Procedure α} (h : p.GivesUp fault) :
    p.WritesOnly W := by
  induction p with
  | done result => trivial
  | read address next ih => exact h.elim
  | write address value next ih => exact h.elim
  | note entry next ih => exact ih h
  | pause microseconds next ih => exact ih h

/-- A careful procedure keeps to its bound after refusals and alarms too. -/
theorem Careful.writesOnly {silent : Fault → Prop} {p : Procedure α} (h : p.Careful W silent) :
    p.WritesOnly W := by
  induction p with
  | done result => trivial
  | read address next ih =>
    -- a refusal makes it give up, and what gives up writes nothing
    rintro (_ | value)
    · exact h.1.writesOnly
    · exact ih _ (h.2 value)
  | write address value next ih =>
    refine ⟨h.1, ?_⟩
    rintro (_ | _)
    · exact h.2.1.writesOnly
    · exact ih _ h.2.2
  | note entry next ih =>
    unfold Careful at h
    split at h
    · exact h.writesOnly
    · exact ih h
  | pause microseconds next ih => exact ih h

/-! ## The writes of a run -/

/-- The writes of a run are those that the procedure can come to. -/
theorem WritesOnly.of_mem {p : Procedure α} (h : p.WritesOnly W) (t : Transport σ) (s : σ)
    {address : Address} {value : Byte} {accepted : Bool}
    (he : .write address value accepted ∈ (p.run t s).events) : W address value := by
  induction p generalizing s with
  | done result => simp [run] at he
  | read a next ih =>
    simp only [run, List.mem_cons, reduceCtorEq, false_or] at he
    exact ih _ (h _) _ he
  | write a v next ih =>
    simp only [run, List.mem_cons, Event.write.injEq] at he
    rcases he with ⟨rfl, rfl, -⟩ | he
    · exact h.1
    · exact ih _ (h.2 _) _ he
  | note entry next ih =>
    simp only [run, List.mem_cons, reduceCtorEq, false_or] at he
    exact ih h _ he
  | pause microseconds next ih =>
    simp only [run, List.mem_cons, reduceCtorEq, false_or] at he
    exact ih h _ he

/-- Where no write is allowed, none is made. -/
theorem no_write_of_writesOnly {p : Procedure α} (h : p.WritesOnly fun _ _ => False)
    (t : Transport σ) (s : σ) : ∀ e ∈ (p.run t s).events, e.isWrite = false := by
  intro e he
  cases e with
  | write address value accepted => exact (h.of_mem t s he).elim
  | read _ _ | note _ | pause _ => rfl

/-- A change of a register that ends well has written it. -/
theorem mem_of_modify_ok (t : Transport σ) {address : Address} {change : Byte → Byte} {s : σ}
    {u : Unit} (h : ((modify address change).run t s).result = .ok u) :
    ∃ old, .write address (change old) true ∈ ((modify address change).run t s).events := by
  obtain ⟨old, -, hwrite, hevents⟩ := run_bind_ok t h
  refine ⟨old, ?_⟩
  rw [modify, hevents]
  refine List.mem_append_right _ ?_
  rw [run_writeByte] at hwrite ⊢
  generalize t.write address (change old) _ = answer at hwrite ⊢
  rcases answer with ⟨_ | _, s'⟩
  · cases hwrite
  · exact List.mem_singleton_self _

end Procedure

end Transceiver
