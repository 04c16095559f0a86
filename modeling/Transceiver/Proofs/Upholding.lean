import Transceiver.Proofs.Preconditions

/-!
# Upholding an invariant

Where accesses can be refused, a procedure can end after any of its accesses, so what is to hold of
the registers in the end has to hold in between as well. `Procedure.Upholds` is the precondition for
that: at each access the conversation goes on in two ways, refused and accepted, and an invariant
holds after every accepted write.

A chip that is reached from power on by commands, whatever is refused of them and whatever becomes
of the rest of the chip in between, has the invariants that power on has and every command upholds.
-/

namespace Transceiver

/-! ## Answers on the bus -/

namespace Chip

/-- What a chip shows at a read is one of the possible answers. -/
theorem answers_of_read {c : Chip} {address : Address} {value : Byte}
    (h : (c.read address).1 = some value) : Answers none c.registers address value := by
  unfold read at h
  unfold Answers
  split at h
  · cases h
  · cases hs : Site.at address with
    | memory | control block =>
      rw [hs] at h
      exact (Option.some.inj h).symm
    | voltage half => exact fun _ hw => by cases hw
    | value block | status block => trivial

/-- What the bus answers to a read that it accepts is an answer of the chip. -/
theorem answers_of_bus_read {refused : Nat → Bool} {s : Nat × Chip} {address : Address}
    {value : Byte} (h : ((bus refused).read address s).1 = some value) :
    Answers none s.2.registers address value := by
  simp only [bus, Transport.refusing] at h
  split at h
  · cases h
  · exact answers_of_read h

end Chip

namespace Procedure

open Chip

variable {α β : Type} {P : RegisterFile → Prop} {post : Except Fault α → RegisterFile → Prop}
  {r : RegisterFile}

/-- What has to hold of the registers at the start, for `P` to hold of the registers after every
accepted write and `post` of the result and of the registers in the end, whatever is refused. -/
def Upholds (P : RegisterFile → Prop) (post : Except Fault α → RegisterFile → Prop) :
    Procedure α → RegisterFile → Prop
  | .done result, r => post result r
  | .read address next, r => (next none).Upholds P post r ∧
    ∀ value, Answers none r address value → (next (some value)).Upholds P post r
  | .write address value next, r => (next false).Upholds P post r ∧
    P (r.set address value) ∧ (next true).Upholds P post (r.set address value)
  | .note _ next, r | .pause _ next, r => next.Upholds P post r

/-! ## Runs -/

/-- An invariant holds at every moment if it holds at the start and after the first event on. -/
theorem holds_cons {e : Event} {events : List Event} (h : P r)
    (hrest : ∀ pre rest, events = pre ++ rest → P ((r.step e).after pre)) :
    ∀ pre rest, e :: events = pre ++ rest → P (r.after pre) := by
  intro pre rest heq
  cases pre with
  | nil => exact h
  | cons x pre =>
    obtain ⟨rfl, htail⟩ := List.cons.inj heq
    exact hrest pre rest htail

/-- What is upheld holds at every moment of a run, and what is promised holds in the end. -/
theorem Upholds.run {p : Procedure α} {refused : Nat → Bool} {s : Nat × Chip}
    (h : p.Upholds P post s.2.registers) (hP : P s.2.registers) :
    post (p.run (bus refused) s).result (p.run (bus refused) s).state.2.registers ∧
      ∀ pre rest, (p.run (bus refused) s).events = pre ++ rest → P (s.2.registers.after pre) := by
  -- the induction follows the tree; the registers move with the accepted writes only
  induction p generalizing s with
  | done result =>
    refine ⟨h, fun pre rest heq => ?_⟩
    obtain ⟨rfl, -⟩ := List.append_eq_nil_iff.1 heq.symm
    exact hP
  | read address next ih =>
    have hregs := registers_bus_read refused address s
    have hnext : (next ((bus refused).read address s).1).Upholds P post
        ((bus refused).read address s).2.2.registers := by
      rw [hregs]
      cases hanswer : ((bus refused).read address s).1 with
      | none => exact h.1
      | some value => exact h.2 value (answers_of_bus_read hanswer)
    obtain ⟨hpost, hevents⟩ := ih _ hnext (hregs.symm ▸ hP)
    rw [hregs] at hevents
    exact ⟨hpost, holds_cons hP hevents⟩
  | write address value next ih =>
    have hregs := registers_bus_write refused address value s
    have hnext : P ((bus refused).write address value s).2.2.registers ∧
        (next ((bus refused).write address value s).1).Upholds P post
          ((bus refused).write address value s).2.2.registers := by
      rw [hregs]
      cases ((bus refused).write address value s).1 with
      | false => exact ⟨hP, h.1⟩
      | true => exact h.2
    obtain ⟨hpost, hevents⟩ := ih _ hnext.2 hnext.1
    rw [hregs] at hevents
    exact ⟨hpost, holds_cons hP hevents⟩
  | note entry next ih | pause microseconds next ih =>
    obtain ⟨hpost, hevents⟩ := ih h hP
    exact ⟨hpost, holds_cons hP hevents⟩

/-! ## Rules -/

/-- Nothing has to hold for what is always true. -/
theorem upholds_true (p : Procedure α) (r : RegisterFile) :
    p.Upholds (fun _ => True) (fun _ _ => True) r := by
  induction p generalizing r with
  | done result => trivial
  | read address next ih => exact ⟨ih _ r, fun value _ => ih _ r⟩
  | write address value next ih => exact ⟨ih _ r, trivial, ih _ _⟩
  | note entry next ih | pause microseconds next ih => exact ih r

/-- A procedure that upholds something upholds what follows from it. -/
theorem Upholds.mono {Q : RegisterFile → Prop} {last : Except Fault α → RegisterFile → Prop}
    {p : Procedure α} (h : p.Upholds P post r) (hP : ∀ r, P r → Q r)
    (hpost : ∀ result r', post result r' → last result r') : p.Upholds Q last r := by
  induction p generalizing r with
  | done result => exact hpost result r h
  | read address next ih => exact ⟨ih _ h.1, fun value hanswer => ih _ (h.2 value hanswer)⟩
  | write address value next ih => exact ⟨ih _ h.1, hP _ h.2.1, ih _ h.2.2⟩
  | note entry next ih | pause microseconds next ih => exact ih h

/-- A sequence goes on where its first part ends well, with something that this can return. -/
theorem Upholds.bind {p : Procedure α} {f : α → Procedure β}
    {last : Except Fault β → RegisterFile → Prop} (hp : p.Upholds P post r)
    (hok : ∀ a r', p.CanReturn a → post (.ok a) r' → (f a).Upholds P last r')
    (herror : ∀ fault r', post (.error fault) r' → last (.error fault) r') :
    (p >>= f).Upholds P last r := by
  show (p.bind f).Upholds P last r
  induction p generalizing r with
  | done result =>
    cases result with
    | ok a => exact hok a r rfl hp
    | error fault => exact herror fault r hp
  | read address next ih =>
    refine ⟨ih _ hp.1 fun a r' ha => hok a r' ⟨none, ha⟩, fun value hanswer => ?_⟩
    exact ih _ (hp.2 value hanswer) fun a r' ha => hok a r' ⟨some value, ha⟩
  | write address value next ih =>
    refine ⟨ih _ hp.1 fun a r' ha => hok a r' ⟨false, ha⟩, hp.2.1, ?_⟩
    exact ih _ hp.2.2 fun a r' ha => hok a r' ⟨true, ha⟩
  | note entry next ih | pause microseconds next ih => exact ih hp hok

/-- What comes after the read of a stored register goes on with what it holds, unless the read is
refused. -/
theorem upholds_readByte_bind {address : Address} (hs : (Site.at address).isStored)
    {f : Byte → Procedure α} (hrefused : post (.error .io) r)
    (h : (f (r.get address)).Upholds P post r) : (readByte address >>= f).Upholds P post r := by
  refine ⟨hrefused, fun value hanswer => ?_⟩
  obtain rfl := (answers_iff_of_stored hs r value).1 hanswer
  exact h

/-- A write is refused and changes nothing, or it sets its register. -/
theorem upholds_writeByte {address : Address} {value : Byte}
    {post : Except Fault Unit → RegisterFile → Prop} (hrefused : post (.error .io) r)
    (hP : P (r.set address value)) (h : post (.ok ()) (r.set address value)) :
    (writeByte address value).Upholds P post r :=
  ⟨hrefused, hP, h⟩

/-- Putting a flag reads and writes its register: after a refusal of either of the two the flag is
as before. -/
theorem upholds_put {flag : Flag} (hs : (Site.at flag.address).isStored) {on : Bool}
    {post : Except Fault Unit → RegisterFile → Prop} (hrefused : post (.error .io) r)
    (hP : P (r.put flag on)) (h : post (.ok ()) (r.put flag on)) :
    (put flag on).Upholds P post r :=
  upholds_readByte_bind hs hrefused (upholds_writeByte hrefused hP h)

/-! ## Careful procedures -/

section Careful

variable {W : Address → Byte → Prop} {silent : Fault → Prop} {p : Procedure α}

/-- A procedure that gives up does not end well. -/
theorem GivesUp.upholds {fault : Fault} (h : p.GivesUp fault) (r : RegisterFile) :
    p.Upholds (fun _ => True) (fun result _ => ∀ a, result ≠ .ok a) r := by
  induction p with
  | done result =>
    obtain rfl : result = .error fault := h
    exact nofun
  | read address next ih => exact h.elim
  | write address value next ih => exact h.elim
  | note entry next ih | pause microseconds next ih => exact ih h

/-- A careful procedure that ends well has not been refused anything, so what it has promised for
that case holds. -/
theorem Careful.upholds_of_wp (hc : p.Careful W silent) (h : p.wp none post r) :
    p.Upholds (fun _ => True) (fun result r' => ∀ a, result = .ok a → post result r') r := by
  have hgivenUp {q : Procedure α} {fault : Fault} (hq : q.GivesUp fault) (r : RegisterFile) :
      q.Upholds (fun _ => True) (fun result r' => ∀ a, result = .ok a → post result r') r :=
    (hq.upholds r).mono (fun _ => id) fun _ _ hne a ha => absurd ha (hne a)
  induction p generalizing r with
  | done result => exact fun _ _ => h
  | read address next ih =>
    exact ⟨hgivenUp hc.1 r, fun value hanswer => ih _ (hc.2 value) (h value hanswer)⟩
  | write address value next ih => exact ⟨hgivenUp hc.2.1 r, trivial, ih _ hc.2.2 h⟩
  | note entry next ih =>
    unfold Careful at hc
    split at hc
    · exact hgivenUp hc r
    · exact ih hc h
  | pause microseconds next ih => exact ih hc h

end Careful

/-! ## Maintaining -/

/-- However the procedure goes, it upholds `P` if that held at the start. -/
def Maintains (P : RegisterFile → Prop) (p : Procedure α) : Prop :=
  ∀ r, P r → p.Upholds P (fun _ r' => P r') r

theorem maintains_pure (a : α) : (pure a : Procedure α).Maintains P :=
  fun _ h => h

theorem maintains_fail (fault : Fault) : (fail fault : Procedure α).Maintains P :=
  fun _ h => h

theorem maintains_log (entry : Note) : (log entry).Maintains P :=
  fun _ h => h

/-- A sequence maintains what both parts do. The second part may rely on what the first one can
return. -/
theorem Maintains.bind {p : Procedure α} {f : α → Procedure β} (hp : p.Maintains P)
    (hf : ∀ a, p.CanReturn a → (f a).Maintains P) : (p >>= f).Maintains P :=
  fun r h => (hp r h).bind (fun a r' ha => hf a ha r') fun _ _ h' => h'

theorem Maintains.map {p : Procedure α} (hp : p.Maintains P) (f : α → β) :
    (f <$> p).Maintains P := by
  rw [← bind_pure_comp]
  exact hp.bind fun a _ => maintains_pure (f a)

theorem Maintains.acknowledge {p : Procedure Unit} (hp : p.Maintains P) :
    (acknowledge p).Maintains P :=
  hp.bind fun _ _ => maintains_pure _

/-- Writes that keep the invariant on their own maintain it. -/
theorem maintains_of_writesOnly {W : Address → Byte → Prop} {p : Procedure α} (h : p.WritesOnly W)
    (hW : ∀ r address value, W address value → P r → P (r.set address value)) :
    p.Maintains P := by
  intro r hr
  induction p generalizing r with
  | done result => exact hr
  | read address next ih => exact ⟨ih _ (h _) r hr, fun value _ => ih _ (h _) r hr⟩
  | write address value next ih =>
    have hset := hW r address value h.1 hr
    exact ⟨ih _ (h.2 false) r hr, hset, ih _ (h.2 true) _ hset⟩
  | note entry next ih | pause microseconds next ih => exact ih h r hr

/-- A stored register that is changed keeps the invariant if the change of what it holds does. -/
theorem maintains_modify {address : Address} (hs : (Site.at address).isStored)
    {change : Byte → Byte} (h : ∀ r, P r → P (r.set address (change (r.get address)))) :
    (modify address change).Maintains P := by
  intro r hr
  apply upholds_readByte_bind hs hr
  exact upholds_writeByte hr (h r hr) (h r hr)

/-- Holding a fault back changes nothing about the accesses. -/
theorem upholds_attempt {p : Procedure α}
    {post : Except Fault (Except Fault α) → RegisterFile → Prop} :
    p.attempt.Upholds P post r ↔ p.Upholds P (fun result => post (.ok result)) r := by
  induction p generalizing r with
  | done result => rfl
  | read address next ih => simp only [attempt, Upholds, ih]
  | write address value next ih => simp only [attempt, Upholds, ih]
  | note entry next ih | pause microseconds next ih => exact ih

/-- What is attempted maintains the same, and the fault is only handed on. -/
theorem Maintains.attempt {p : Procedure α} (hp : p.Maintains P) : p.attempt.Maintains P :=
  fun r h => upholds_attempt.2 (hp r h)

/-- What a procedure maintains it maintains part by part. -/
theorem compositional_maintains (P : RegisterFile → Prop) :
    Compositional fun p => p.Maintains P where
  done _ := fun _ h => h
  log entry _ := maintains_log entry
  bind hp hf := hp.bind fun a _ => hf a
  attempt := Maintains.attempt

end Procedure

/-! ## Chips that can be reached -/

/-- Whether a command writes a register without regard to what the register is for. -/
def Command.isRaw : Command → Bool
  | .writeRaw _ _ | .setBits _ _ | .clearBits _ _ => true
  | _ => false

namespace Chip

/-- A chip that some commands have been given to since power on, none of them raw. Any accesses of
a command may have been refused, and before it anything but the registers may have changed. -/
inductive Reached : List Command → Chip → Prop where
  | powerOn {c : Chip} (registers : c.registers = initialRegisters) : Reached [] c
  | command {commands : List Command} {before c : Chip} {command : Command}
    (reached : Reached commands before) (registers : c.registers = before.registers)
    (tame : command.isRaw = false) (refused : Nat → Bool) (n : Nat) :
    Reached (commands ++ [command]) (command.procedure.run (bus refused) (n, c)).state.2

/-- Every reached chip has an invariant of power on that all commands maintain. -/
theorem Reached.invariant {P : RegisterFile → Prop} (hinitial : P initialRegisters)
    (hmaintains : ∀ command : Command, command.isRaw = false → command.procedure.Maintains P)
    {commands : List Command} {c : Chip} (h : c.Reached commands) : P c.registers := by
  induction h with
  | powerOn registers => exact registers ▸ hinitial
  | command reached registers tame refused n ih =>
    have hstart := registers ▸ ih
    exact ((hmaintains _ tame _ hstart).run (s := (n, _)) hstart).1

/-- A chip that some commands lead to from a given one. Any accesses of a command may have been
refused, and before it anything but the registers may have changed: the addresses whose accesses
fail, the window of the comparators and what they are about to show. -/
inductive Driven (start : Chip) : List Command → Chip → Prop where
  | nothing {c : Chip} (registers : c.registers = start.registers) : Driven start [] c
  | command {commands : List Command} {before c : Chip} {command : Command}
    (driven : Driven start commands before) (registers : c.registers = before.registers)
    (refused : Nat → Bool) (n : Nat) :
    Driven start (commands ++ [command]) (command.procedure.run (bus refused) (n, c)).state.2

/-- What holds at the start and is maintained by every command of a sequence holds after it. -/
theorem Driven.invariant {P : RegisterFile → Prop} {start c : Chip} {commands : List Command}
    (h : start.Driven commands c)
    (hmaintains : ∀ command ∈ commands, command.procedure.Maintains P)
    (hstart : P start.registers) : P c.registers := by
  induction h with
  | nothing registers => exact registers ▸ hstart
  | command driven registers refused n ih =>
    have hbefore := registers ▸ ih fun command hmem => hmaintains command (by simp [hmem])
    have hlast := hmaintains _ (List.mem_append_right _ List.mem_cons_self) _ hbefore
    exact (hlast.run (s := (n, _)) hbefore).1

end Chip

end Transceiver
