import Transceiver.Proofs.Writes

/-!
# What a procedure does after a history

Some rules on events look back: a strobe may be written only while other registers hold certain
values, a poll may be made only so often since the last start. `Ensures` states such a rule of a
procedure that is entered after some events, and with it what holds of the result and of all events
at the end. It is a property of the tree, so it covers every transport at once, and it is built up
part by part: the events that one part leaves behind are those that the next one is entered after.

A part that can only emit events of an inconspicuous kind needs no such care. `Emits` bounds its
events one by one, and `Careful.ensures` turns the bound into a rule with a history.
-/

namespace Transceiver.Procedure

variable {σ α β : Type}

/-! ## Bounds on single events -/

section Emits

variable {E E' : Event → Prop}

/-- Every event that the procedure can come to, whatever it is answered, satisfies `E`. -/
def Emits (E : Event → Prop) : Procedure α → Prop
  | .done _ => True
  | .read address next => ∀ answer, E (.read address answer) ∧ (next answer).Emits E
  | .write address value next =>
    ∀ accepted, E (.write address value accepted) ∧ (next accepted).Emits E
  | .note entry next => E (.note entry) ∧ next.Emits E
  | .pause microseconds next => E (.pause microseconds) ∧ next.Emits E

/-- A sequence emits what its parts emit. -/
theorem Emits.bind {p : Procedure α} {f : α → Procedure β} (hp : p.Emits E)
    (hf : ∀ a, (f a).Emits E) : (p >>= f).Emits E := by
  show (p.bind f).Emits E
  induction p with
  | done result =>
    cases result with
    | ok a => exact hf a
    | error fault => trivial
  | read address next ih => exact fun answer => ⟨(hp answer).1, ih answer (hp answer).2⟩
  | write address value next ih =>
    exact fun accepted => ⟨(hp accepted).1, ih accepted (hp accepted).2⟩
  | note entry next ih => exact ⟨hp.1, ih hp.2⟩
  | pause microseconds next ih => exact ⟨hp.1, ih hp.2⟩

theorem emits_pure (a : α) : (pure a : Procedure α).Emits E :=
  trivial

/-- A fault emits nothing. -/
theorem emits_fail (fault : Fault) : (fail fault : Procedure α).Emits E :=
  trivial

theorem emits_log {entry : Note} (h : E (.note entry)) : (log entry).Emits E :=
  ⟨h, trivial⟩

theorem emits_readByte {address : Address} (h : ∀ answer, E (.read address answer)) :
    (readByte address).Emits E := by
  rintro (_ | value) <;> exact ⟨h _, trivial⟩

theorem emits_writeByte {address : Address} {value : Byte}
    (h : ∀ accepted, E (.write address value accepted)) : (writeByte address value).Emits E := by
  rintro (_ | _) <;> exact ⟨h _, trivial⟩

/-- A change emits its read and its write. -/
theorem emits_modify {address : Address} {change : Byte → Byte}
    (hread : ∀ answer, E (.read address answer))
    (hwrite : ∀ old accepted, E (.write address (change old) accepted)) :
    (modify address change).Emits E :=
  (emits_readByte hread).bind fun old => emits_writeByte (hwrite old)

theorem emits_load {w : Nat} {field : BitField w} (h : ∀ answer, E (.read field.address answer)) :
    (load field).Emits E :=
  (emits_readByte h).bind fun _ => emits_pure _

theorem emits_assign {w : Nat} {field : BitField w} {value : BitVec w}
    (hread : ∀ answer, E (.read field.address answer))
    (hwrite : ∀ old accepted, E (.write field.address (field.set old value) accepted)) :
    (assign field value).Emits E :=
  emits_modify hread hwrite

/-- Holding a fault back emits nothing. -/
theorem Emits.attempt {p : Procedure α} (hp : p.Emits E) : p.attempt.Emits E := by
  induction p with
  | done result => trivial
  | read address next ih => exact fun answer => ⟨(hp answer).1, ih answer (hp answer).2⟩
  | write address value next ih =>
    exact fun accepted => ⟨(hp accepted).1, ih accepted (hp accepted).2⟩
  | note entry next ih => exact ⟨hp.1, ih hp.2⟩
  | pause microseconds next ih => exact ⟨hp.1, ih hp.2⟩

/-- Forced steps emit what each of them emits. -/
theorem emits_forceAll {ps : List (Procedure Unit)} (h : ∀ p ∈ ps, p.Emits E) :
    (forceAll ps).Emits E := by
  induction ps with
  | nil => trivial
  | cons p rest ih =>
    obtain ⟨hp, hrest⟩ := List.forall_mem_cons.1 h
    exact hp.attempt.bind fun _ => (ih hrest).attempt.bind fun _ => trivial

theorem Emits.map {p : Procedure α} (hp : p.Emits E) (f : α → β) : (f <$> p).Emits E := by
  rw [← bind_pure_comp]
  exact hp.bind fun a => emits_pure (f a)

theorem emits_forM {ι : Type} {f : ι → Procedure Unit} {l : List ι} (h : ∀ i ∈ l, (f i).Emits E) :
    (l.forM f).Emits E := by
  induction l with
  | nil => trivial
  | cons i rest ih =>
    obtain ⟨hi, hrest⟩ := List.forall_mem_cons.1 h
    exact hi.bind fun _ => ih hrest

/-- What holds of all events of a procedure may be weakened. -/
theorem Emits.mono {p : Procedure α} (h : p.Emits E) (hE : ∀ e, E e → E' e) : p.Emits E' := by
  induction p with
  | done result => trivial
  | read address next ih => exact fun answer => ⟨hE _ (h answer).1, ih answer (h answer).2⟩
  | write address value next ih =>
    exact fun accepted => ⟨hE _ (h accepted).1, ih accepted (h accepted).2⟩
  | note entry next ih | pause microseconds next ih => exact ⟨hE _ h.1, ih h.2⟩

/-- The writes among the events are all that is written. -/
theorem Emits.writesOnly {W : Address → Byte → Prop} {p : Procedure α} (h : p.Emits E)
    (hW : ∀ address value accepted, E (.write address value accepted) → W address value) :
    p.WritesOnly W := by
  induction p with
  | done result => trivial
  | read address next ih => exact fun answer => ih answer (h answer).2
  | write address value next ih =>
    exact ⟨hW _ _ _ (h true).1, fun accepted => ih accepted (h accepted).2⟩
  | note entry next ih | pause microseconds next ih => exact ih h.2

/-- A bound on the writes of a procedure is one on its events. -/
theorem WritesOnly.emits {W : Address → Byte → Prop} {p : Procedure α} (h : p.WritesOnly W) :
    p.Emits fun e => ∀ address value accepted,
      e = .write address value accepted → W address value := by
  induction p with
  | done result => trivial
  | read address next ih => exact fun answer => ⟨nofun, ih answer (h answer)⟩
  | write address value next ih =>
    refine fun accepted => ⟨?_, ih accepted (h.2 accepted)⟩
    rintro _ _ _ ⟨⟩
    exact h.1
  | note entry next ih | pause microseconds next ih => exact ⟨nofun, ih h⟩

/-- The events of a run are some that the procedure can come to. -/
theorem Emits.run {p : Procedure α} (h : p.Emits E) (t : Transport σ) (s : σ) :
    ∀ e ∈ (p.run t s).events, E e := by
  induction p generalizing s with
  | done result => simp [Procedure.run]
  | read address next ih => exact List.forall_mem_cons.2 ⟨(h _).1, ih _ (h _).2 _⟩
  | write address value next ih => exact List.forall_mem_cons.2 ⟨(h _).1, ih _ (h _).2 _⟩
  | note entry next ih | pause microseconds next ih =>
    exact List.forall_mem_cons.2 ⟨h.1, ih h.2 s⟩

end Emits

/-! ## Rules that look back -/

section Ensures

variable {allowed : List Event → Event → Prop} {post post' : Except Fault α → List Event → Prop}
  {past : List Event}

/-- Entered after the events `past`, whatever it is answered, the procedure comes only to events
that are allowed after the ones before them, and ends with a result and a history that satisfy
`post`. -/
def Ensures (allowed : List Event → Event → Prop) (post : Except Fault α → List Event → Prop) :
    Procedure α → List Event → Prop
  | .done result, past => post result past
  | .read address next, past => ∀ answer,
    allowed past (.read address answer) ∧
      (next answer).Ensures allowed post (past ++ [.read address answer])
  | .write address value next, past => ∀ accepted,
    allowed past (.write address value accepted) ∧
      (next accepted).Ensures allowed post (past ++ [.write address value accepted])
  | .note entry next, past =>
    allowed past (.note entry) ∧ next.Ensures allowed post (past ++ [.note entry])
  | .pause microseconds next, past =>
    allowed past (.pause microseconds) ∧ next.Ensures allowed post (past ++ [.pause microseconds])

/-- The postcondition may be weakened. -/
theorem Ensures.mono {p : Procedure α} (h : p.Ensures allowed post past)
    (hpost : ∀ result past', post result past' → post' result past') :
    p.Ensures allowed post' past := by
  induction p generalizing past with
  | done result => exact hpost _ _ h
  | read address next ih => exact fun answer => ⟨(h answer).1, ih answer (h answer).2⟩
  | write address value next ih =>
    exact fun accepted => ⟨(h accepted).1, ih accepted (h accepted).2⟩
  | note entry next ih => exact ⟨h.1, ih h.2⟩
  | pause microseconds next ih => exact ⟨h.1, ih h.2⟩

/-- A sequence is entered where its first part is, and its second part where the first one ends
well. -/
theorem Ensures.bind {p : Procedure α} {f : α → Procedure β}
    {postf : Except Fault β → List Event → Prop} (hp : p.Ensures allowed post past)
    (hok : ∀ a past', post (.ok a) past' → (f a).Ensures allowed postf past')
    (herror : ∀ fault past', post (.error fault) past' → postf (.error fault) past') :
    (p >>= f).Ensures allowed postf past := by
  show (p.bind f).Ensures allowed postf past
  induction p generalizing past with
  | done result =>
    cases result with
    | ok a => exact hok a past hp
    | error fault => exact herror fault past hp
  | read address next ih => exact fun answer => ⟨(hp answer).1, ih answer (hp answer).2⟩
  | write address value next ih =>
    exact fun accepted => ⟨(hp accepted).1, ih accepted (hp accepted).2⟩
  | note entry next ih => exact ⟨hp.1, ih hp.2⟩
  | pause microseconds next ih => exact ⟨hp.1, ih hp.2⟩

/-- What a procedure ends in well it can return. -/
theorem Ensures.canReturn {p : Procedure α} (h : p.Ensures allowed post past) :
    p.Ensures allowed
      (fun result past' => post result past' ∧ ∀ a, result = .ok a → p.CanReturn a) past := by
  induction p generalizing past with
  | done result => exact ⟨h, fun a ha => ha⟩
  | read address next ih =>
    refine fun answer => ⟨(h answer).1, (ih answer (h answer).2).mono fun result past' h' => ?_⟩
    exact ⟨h'.1, fun a ha => ⟨answer, h'.2 a ha⟩⟩
  | write address value next ih =>
    refine fun accepted => ⟨(h accepted).1, ?_⟩
    refine (ih accepted (h accepted).2).mono fun result past' h' => ?_
    exact ⟨h'.1, fun a ha => ⟨accepted, h'.2 a ha⟩⟩
  | note entry next ih => exact ⟨h.1, ih h.2⟩
  | pause microseconds next ih => exact ⟨h.1, ih h.2⟩

/-- Holding a fault back hands the result on. -/
theorem Ensures.attempt {p : Procedure α} (h : p.Ensures allowed post past) :
    p.attempt.Ensures allowed
      (fun attempted past' => ∃ result, attempted = .ok result ∧ post result past') past := by
  induction p generalizing past with
  | done result => exact ⟨result, rfl, h⟩
  | read address next ih => exact fun answer => ⟨(h answer).1, ih answer (h answer).2⟩
  | write address value next ih =>
    exact fun accepted => ⟨(h accepted).1, ih accepted (h accepted).2⟩
  | note entry next ih => exact ⟨h.1, ih h.2⟩
  | pause microseconds next ih => exact ⟨h.1, ih h.2⟩

/-- A forced sequence goes on after its first part however that has ended. -/
theorem Ensures.forceAll_cons {p : Procedure Unit} {rest : List (Procedure Unit)}
    {post mid : Except Fault Unit → List Event → Prop} (hp : p.Ensures allowed mid past)
    (hrest : ∀ first past', mid first past' →
      (forceAll rest).Ensures allowed (fun others => post (first *> others)) past') :
    (forceAll (p :: rest)).Ensures allowed post past := by
  refine hp.attempt.bind (fun first past' hfirst => ?_) fun fault past' hfirst => ?_
  · obtain ⟨result, heq, hmid⟩ := hfirst
    obtain rfl := Except.ok.inj heq
    refine (hrest first past' hmid).attempt.bind (fun others past'' hothers => ?_)
      fun fault past'' hothers => ?_
    · obtain ⟨result', heq', hpost⟩ := hothers
      obtain rfl := Except.ok.inj heq'
      exact hpost
    · obtain ⟨_, hne, -⟩ := hothers
      cases hne
  · obtain ⟨_, hne, -⟩ := hfirst
    cases hne

theorem ensures_log {entry : Note} {post : Except Fault Unit → List Event → Prop}
    (hallowed : allowed past (.note entry)) (h : post (.ok ()) (past ++ [.note entry])) :
    (log entry).Ensures allowed post past :=
  ⟨hallowed, h⟩

/-- A read is added to the history, with its value or as refused. -/
theorem ensures_readByte {address : Address} {post : Except Fault Byte → List Event → Prop}
    (hallowed : ∀ answer, allowed past (.read address answer))
    (hrefused : post (.error .io) (past ++ [.read address none]))
    (h : ∀ value, post (.ok value) (past ++ [.read address (some value)])) :
    (readByte address).Ensures allowed post past := by
  rintro (_ | value)
  · exact ⟨hallowed none, hrefused⟩
  · exact ⟨hallowed (some value), h value⟩

/-- A write is added to the history, accepted or refused. -/
theorem ensures_writeByte {address : Address} {value : Byte}
    {post : Except Fault Unit → List Event → Prop}
    (hallowed : ∀ accepted, allowed past (.write address value accepted))
    (hrefused : post (.error .io) (past ++ [.write address value false]))
    (h : post (.ok ()) (past ++ [.write address value true])) :
    (writeByte address value).Ensures allowed post past := by
  rintro (_ | _)
  · exact ⟨hallowed false, hrefused⟩
  · exact ⟨hallowed true, h⟩

/-- A sequence that begins with a read goes on with the answer, or ends where it is refused. -/
theorem ensures_readByte_bind {address : Address} {f : Byte → Procedure α}
    (hallowed : ∀ answer, allowed past (.read address answer))
    (hrefused : post (.error .io) (past ++ [.read address none]))
    (h : ∀ value, (f value).Ensures allowed post (past ++ [.read address (some value)])) :
    (readByte address >>= f).Ensures allowed post past := by
  rintro (_ | value)
  · exact ⟨hallowed none, hrefused⟩
  · exact ⟨hallowed (some value), h value⟩

theorem ensures_log_bind {entry : Note} {f : Unit → Procedure α}
    (hallowed : allowed past (.note entry))
    (h : (f ()).Ensures allowed post (past ++ [.note entry])) :
    (log entry >>= f).Ensures allowed post past :=
  ⟨hallowed, h⟩

theorem ensures_wait_bind {microseconds : Nat} {f : Unit → Procedure α}
    (hallowed : allowed past (.pause microseconds))
    (h : (f ()).Ensures allowed post (past ++ [.pause microseconds])) :
    (wait microseconds >>= f).Ensures allowed post past :=
  ⟨hallowed, h⟩

/-- An event comes first, or after the first one has joined the history. -/
theorem allowed_cons {first : Event} {events : List Event} (hfirst : allowed past first)
    (hrest : ∀ pre e rest, events = pre ++ e :: rest → allowed (past ++ [first] ++ pre) e) :
    ∀ pre e rest, first :: events = pre ++ e :: rest → allowed (past ++ pre) e := by
  intro pre e rest heq
  cases pre with
  | nil =>
    obtain ⟨rfl, -⟩ := List.cons.inj heq
    rwa [List.append_nil]
  | cons x pre =>
    obtain ⟨rfl, htail⟩ := List.cons.inj heq
    have hlater := hrest pre e rest htail
    rwa [List.append_assoc, List.singleton_append] at hlater

/-- What a run does obeys the rule of its procedure. -/
theorem Ensures.run {p : Procedure α} (h : p.Ensures allowed post past) (t : Transport σ) (s : σ) :
    post (p.run t s).result (past ++ (p.run t s).events) ∧
      ∀ pre e rest, (p.run t s).events = pre ++ e :: rest → allowed (past ++ pre) e := by
  -- induction on the procedure; what has happened so far is passed down
  induction p generalizing past s with
  | done result => exact ⟨(List.append_nil past).symm ▸ h, by simp [Procedure.run]⟩
  | read address next ih =>
    obtain ⟨hnow, hnext⟩ := h (t.read address s).1
    obtain ⟨hpost, hevents⟩ := ih _ hnext (t.read address s).2
    refine ⟨?_, allowed_cons hnow hevents⟩
    simpa only [Procedure.run, List.append_assoc, List.singleton_append] using hpost
  | write address value next ih =>
    obtain ⟨hnow, hnext⟩ := h (t.write address value s).1
    obtain ⟨hpost, hevents⟩ := ih _ hnext (t.write address value s).2
    refine ⟨?_, allowed_cons hnow hevents⟩
    simpa only [Procedure.run, List.append_assoc, List.singleton_append] using hpost
  | note entry next ih =>
    obtain ⟨hpost, hevents⟩ := ih h.2 s
    refine ⟨?_, allowed_cons h.1 hevents⟩
    simpa only [Procedure.run, List.append_assoc, List.singleton_append] using hpost
  | pause microseconds next ih =>
    obtain ⟨hpost, hevents⟩ := ih h.2 s
    refine ⟨?_, allowed_cons h.1 hevents⟩
    simpa only [Procedure.run, List.append_assoc, List.singleton_append] using hpost

/-! ## Inconspicuous parts -/

/-- A procedure whose events are of a kind that is always allowed goes on by such events. -/
theorem Emits.ensures {E : Event → Prop} {p : Procedure α} (he : p.Emits E)
    (hallowed : ∀ past e, E e → allowed past e) :
    p.Ensures allowed (fun _ past' => ∃ new, past' = past ++ new ∧ ∀ e ∈ new, E e) past := by
  have hmore {past past' : List Event} {e : Event} (h : E e) :
      (∃ new, past' = past ++ [e] ++ new ∧ ∀ e ∈ new, E e) →
        ∃ new, past' = past ++ new ∧ ∀ e ∈ new, E e := by
    rintro ⟨new, rfl, hnew⟩
    exact ⟨e :: new, by simp, by simpa using ⟨h, hnew⟩⟩
  induction p generalizing past with
  | done result => exact ⟨[], by simp, by simp⟩
  | read address next ih =>
    intro answer
    exact ⟨hallowed _ _ (he answer).1,
      (ih answer (he answer).2).mono fun _ _ => hmore (he answer).1⟩
  | write address value next ih =>
    intro accepted
    exact ⟨hallowed _ _ (he accepted).1,
      (ih accepted (he accepted).2).mono fun _ _ => hmore (he accepted).1⟩
  | note entry next ih => exact ⟨hallowed _ _ he.1, (ih he.2).mono fun _ _ => hmore he.1⟩
  | pause microseconds next ih => exact ⟨hallowed _ _ he.1, (ih he.2).mono fun _ _ => hmore he.1⟩

/-- A history that has gone on by some events of a kind, and why it has ended in a fault if it
has. -/
structure Continued (E : Event → Prop) (past : List Event) (result : Except Fault α)
    (past' : List Event) : Prop where
  events : ∃ new, past' = past ++ new ∧ ∀ e ∈ new, E e
  fault : ∀ fault, result = .error fault → fault = .io ∧ ∃ e ∈ past', e.isRefused

/-- A procedure that gives up after a refusal adds events of its own kind and ends in that fault. -/
theorem GivesUp.ensures {E : Event → Prop} {p : Procedure α} {new : List Event}
    (h : p.GivesUp .io) (he : p.Emits E)
    (hallowed : ∀ new e, (∀ x ∈ new, E x) → E e → allowed (past ++ new) e)
    (hnew : ∀ x ∈ new, E x) (hrefused : ∃ e ∈ new, e.isRefused) :
    p.Ensures allowed (Continued E past) (past ++ new) := by
  induction p generalizing new with
  | done result =>
    obtain rfl : result = .error .io := h
    obtain ⟨e, hmem, href⟩ := hrefused
    refine ⟨⟨new, rfl, hnew⟩, ?_⟩
    rintro _ ⟨⟩
    exact ⟨rfl, e, List.mem_append_right _ hmem, href⟩
  | read address next ih => exact h.elim
  | write address value next ih => exact h.elim
  | note entry next ih =>
    obtain ⟨e, hmem, href⟩ := hrefused
    refine ⟨hallowed new _ hnew he.1, ?_⟩
    rw [List.append_assoc]
    refine ih h he.2 ?_ ⟨e, List.mem_append_left _ hmem, href⟩
    simpa [or_imp, forall_and] using ⟨hnew, he.1⟩
  | pause microseconds next ih =>
    obtain ⟨e, hmem, href⟩ := hrefused
    refine ⟨hallowed new _ hnew he.1, ?_⟩
    rw [List.append_assoc]
    refine ih h he.2 ?_ ⟨e, List.mem_append_left _ hmem, href⟩
    simpa [or_imp, forall_and] using ⟨hnew, he.1⟩

/-- A careful procedure whose events are of a kind that is always allowed goes on by such events,
and ends in a fault only if it has been refused an access. -/
theorem Careful.ensures {W : Address → Byte → Prop} {E : Event → Prop} {p : Procedure α}
    (hc : p.Careful W fun _ => False) (he : p.Emits E) (halarm : ∀ e, E e → e.isAlarm = false)
    (hallowed : ∀ new e, (∀ x ∈ new, E x) → E e → allowed (past ++ new) e) :
    p.Ensures allowed (Continued E past) past := by
  -- the events so far are generalized, since the allowance is for what comes after `past`
  suffices hnew : ∀ new, (∀ x ∈ new, E x) → p.Ensures allowed (Continued E past) (past ++ new) by
    simpa using hnew [] (by simp)
  have hmore {new : List Event} {e : Event} (hnew : ∀ x ∈ new, E x) (h : E e) :
      ∀ x ∈ new ++ [e], E x := by
    simpa [or_imp, forall_and] using ⟨hnew, h⟩
  induction p with
  | done result =>
    intro new hnew
    exact ⟨⟨new, rfl, hnew⟩, fun fault hfault => (hc fault hfault).elim⟩
  | read address next ih =>
    rintro new hnew (_ | value)
    · refine ⟨hallowed new _ hnew (he none).1, ?_⟩
      rw [List.append_assoc]
      exact hc.1.ensures (he none).2 hallowed (hmore hnew (he none).1)
        ⟨_, List.mem_append_right _ (List.mem_singleton_self _), rfl⟩
    · refine ⟨hallowed new _ hnew (he (some value)).1, ?_⟩
      rw [List.append_assoc]
      exact ih _ (hc.2 value) (he (some value)).2 _ (hmore hnew (he (some value)).1)
  | write address value next ih =>
    rintro new hnew (_ | _)
    · refine ⟨hallowed new _ hnew (he false).1, ?_⟩
      rw [List.append_assoc]
      exact hc.2.1.ensures (he false).2 hallowed (hmore hnew (he false).1)
        ⟨_, List.mem_append_right _ (List.mem_singleton_self _), rfl⟩
    · refine ⟨hallowed new _ hnew (he true).1, ?_⟩
      rw [List.append_assoc]
      exact ih _ hc.2.2 (he true).2 _ (hmore hnew (he true).1)
  | note entry next ih =>
    intro new hnew
    have hquiet : entry.isAlarm = false := halarm _ he.1
    unfold Careful at hc
    rw [if_neg (by simp [hquiet])] at hc
    refine ⟨hallowed new _ hnew he.1, ?_⟩
    rw [List.append_assoc]
    exact ih hc he.2 _ (hmore hnew he.1)
  | pause microseconds next ih =>
    intro new hnew
    refine ⟨hallowed new _ hnew he.1, ?_⟩
    rw [List.append_assoc]
    exact ih hc he.2 _ (hmore hnew he.1)

end Ensures

end Transceiver.Procedure
