import Transceiver.Proofs.Bus
import Transceiver.Proofs.Composition

/-!
# Preconditions

On a chip that refuses no access, what becomes of the registers can be computed along the tree of a
procedure, without the rest of the chip: a write changes its register, and a read of a stored
register shows what it holds. `Procedure.wp` does so backwards. It turns what is to hold of the
result and of the registers in the end into what has to hold of the registers at the start, and
`wp_run` carries it over to runs.

Not every read is settled by the registers. The status and the values of a calibration may be
anything. So may the comparators of a tuning voltage, unless the window that they follow is known.
-/

namespace Transceiver

/-! ## Fields in registers -/

/-- Two fields share no bit of the register file. -/
def BitField.Apart {w w' : Nat} (f : BitField w) (g : BitField w') : Prop :=
  f.address ≠ g.address ∨ f.Disjoint g

instance {w w' : Nat} (f : BitField w) (g : BitField w') : Decidable (f.Apart g) :=
  inferInstanceAs (Decidable (_ ∨ _))

namespace RegisterFile

variable {w w' : Nat}

/-- The value of a field. -/
def field (r : RegisterFile) (f : BitField w) : BitVec w :=
  f.get (r.get f.address)

/-- The registers with a field set. -/
def assign (r : RegisterFile) (f : BitField w) (value : BitVec w) : RegisterFile :=
  r.set f.address (f.set (r.get f.address) value)

/-- Whether a flag is set. -/
def flag (r : RegisterFile) (f : Flag) : Bool :=
  f.isSet (r.get f.address)

/-- The registers with a flag set or cleared. -/
def put (r : RegisterFile) (f : Flag) (on : Bool) : RegisterFile :=
  r.assign f (BitVec.ofBool on)

/-- A field that has been assigned holds the value. -/
@[simp] theorem field_assign_self (r : RegisterFile) (f : BitField w) (value : BitVec w) :
    (r.assign f value).field f = value := by
  rw [field, assign, get_set_self, BitField.get_set_self]

/-- Assigning a field leaves a field alone that shares no bit with it, in the same register or in
another one. -/
theorem field_assign_of_apart {f : BitField w} {g : BitField w'} (h : f.Apart g)
    (r : RegisterFile) (value : BitVec w') : (r.assign g value).field f = r.field f := by
  rw [field, assign, get_set]
  split
  · next ha =>
    rcases h with hne | hdisjoint
    · exact absurd ha.symm hne
    · rw [BitField.get_set_of_disjoint hdisjoint, ha, field]
  · rfl

/-- Assigning a field leaves all registers alone but its own. -/
theorem get_assign_of_ne {f : BitField w} {address : Address} (h : f.address ≠ address)
    (r : RegisterFile) (value : BitVec w) : (r.assign f value).get address = r.get address :=
  get_set_of_ne r h _

@[simp] theorem flag_put_self (r : RegisterFile) (f : Flag) (on : Bool) :
    (r.put f on).flag f = on := by
  show (BitField.isSet f ((r.set f.address (f.put (r.get f.address) on)).get f.address)) = on
  rw [get_set_self, BitField.isSet_put]

theorem flag_assign_of_apart {f : Flag} {g : BitField w} (h : f.Apart g) (r : RegisterFile)
    (value : BitVec w) : (r.assign g value).flag f = r.flag f :=
  congrArg (· == 1#1) (field_assign_of_apart h r value)

/-- Putting a flag leaves all flags alone that lie apart from it. -/
theorem flag_put_of_apart {f g : Flag} (h : f.Apart g) (r : RegisterFile) (on : Bool) :
    (r.put g on).flag f = r.flag f :=
  flag_assign_of_apart h r _

theorem get_put_of_ne {f : Flag} {address : Address} (h : f.address ≠ address)
    (r : RegisterFile) (on : Bool) : (r.put f on).get address = r.get address :=
  get_set_of_ne r h _

/-- Putting a flag to what it is changes nothing. -/
theorem put_flag_self (r : RegisterFile) (f : Flag) : r.put f (r.flag f) = r := by
  have hbits : BitVec.ofBool (r.flag f) = f.get (r.get f.address) := by
    unfold flag BitField.isSet
    generalize f.get (r.get f.address) = bits
    revert bits
    decide
  apply ext_get
  intro address
  show (r.set f.address (f.set (r.get f.address) (BitVec.ofBool (r.flag f)))).get address = _
  rw [hbits, BitField.set_get_self, get_set]
  split
  · next ha => rw [ha]
  · rfl

end RegisterFile

/-! ## The registers and the rest of the chip -/

/-- What a chip with some registers can answer to a read. If `window` is given, the comparators
follow it. -/
def Answers (window : Option (Byte × Byte)) (r : RegisterFile) (address : Address) (value : Byte) :
    Prop :=
  match Site.at address with
  | .memory | .control _ => value = r.get address
  | .voltage h => ∀ w ∈ window,
      value = Chip.voltageAt w ((Register.Pll.vcoCap h).get (r.get (Register.Pll.vcoCap h).address))
  | .value _ | .status _ => True

/-- A stored register can only show what it holds. -/
theorem answers_iff_of_stored {window : Option (Byte × Byte)} {address : Address}
    (h : (Site.at address).isStored) (r : RegisterFile) (value : Byte) :
    Answers window r address value ↔ value = r.get address := by
  unfold Answers
  cases hs : Site.at address with
  | memory | control block => rfl
  | voltage half | value block | status block => simp [hs, Site.isStored] at h

namespace Chip

/-- No access to the chip is refused, and if `window` is given, its comparators follow it. -/
structure Obeys (window : Option (Byte × Byte)) (c : Chip) : Prop where
  reads : c.failRead = none
  writes : c.failWrite = none
  comparators : ∀ w ∈ window, c.window = some w ∧ c.voltages = []

variable {window : Option (Byte × Byte)} {c : Chip}

/-- Reading the comparators keeps a chip obedient, and if they follow a window, they answer by the
tuning code that the register holds. -/
theorem Obeys.readVoltage (hc : c.Obeys window) (h : Half) :
    (c.readVoltage h).2.Obeys window ∧ ∀ w ∈ window,
      (c.readVoltage h).1 = voltageAt w
        ((Register.Pll.vcoCap h).get (c.registers.get (Register.Pll.vcoCap h).address)) := by
  unfold Chip.readVoltage
  split
  · next hvoltages =>
    refine ⟨⟨hc.reads, hc.writes, fun w hw => ?_⟩, fun w hw => ?_⟩ <;>
      simp [(hc.comparators w hw).2] at hvoltages
  · next hvoltages =>
    split
    · next found hfound =>
      refine ⟨hc, fun w hw => ?_⟩
      obtain rfl : found = w := Option.some.inj (hfound.symm.trans (hc.comparators w hw).1)
      rfl
    · next hfound =>
      refine ⟨hc, fun w hw => ?_⟩
      simp [(hc.comparators w hw).1] at hfound

/-- Reading leaves the registers alone and gets one of the possible answers. -/
theorem Obeys.read (hc : c.Obeys window) (address : Address) :
    ∃ value c', c.read address = (some value, c') ∧ Answers window c.registers address value ∧
      c'.Obeys window ∧ c'.registers = c.registers := by
  have hread : ¬ c.failRead = some address := by simp [hc.reads]
  unfold Chip.read Answers
  rw [if_neg hread]
  cases Site.at address with
  | memory | control block => exact ⟨_, _, rfl, rfl, hc, rfl⟩
  | value block => exact ⟨_, _, rfl, trivial, hc, rfl⟩
  | status block => exact ⟨_, _, rfl, trivial, ⟨hc.reads, hc.writes, hc.comparators⟩, rfl⟩
  | voltage h =>
    obtain ⟨hc', hanswer⟩ := hc.readVoltage h
    exact ⟨_, _, rfl, hanswer, hc', registers_readVoltage c h⟩

/-- A write to a control register may start an engine or load a count, but no access is refused for
it. -/
theorem Obeys.strobe (hc : c.Obeys window) (b : Calibration.Block) (control : Byte) :
    (c.strobe b control).Obeys window := by
  unfold Chip.strobe
  dsimp only
  split <;> split <;> exact ⟨hc.reads, hc.writes, hc.comparators⟩

/-- Writing changes one register. -/
theorem Obeys.write (hc : c.Obeys window) (address : Address) (value : Byte) :
    ∃ c', c.write address value = (true, c') ∧ c'.Obeys window ∧
      c'.registers = c.registers.set address value := by
  have hwrite : ¬ c.failWrite = some address := by simp [hc.writes]
  have hset : { c with registers := c.registers.set address value : Chip }.Obeys window :=
    ⟨hc.reads, hc.writes, hc.comparators⟩
  unfold Chip.write
  rw [if_neg hwrite]
  cases Site.at address with
  | control block => exact ⟨_, rfl, hset.strobe block value, registers_strobe _ block value⟩
  | memory | voltage h | value block | status block => exact ⟨_, rfl, hset, rfl⟩

end Chip

namespace Procedure

variable {α β : Type} (window : Option (Byte × Byte))

/-- What has to hold of the registers at the start, for `post` to hold of the result and of the
registers in the end. -/
def wp (post : Except Fault α → RegisterFile → Prop) : Procedure α → RegisterFile → Prop
  | .done result, r => post result r
  | .read address next, r => ∀ value, Answers window r address value → (next (some value)).wp post r
  | .write address value next, r => (next true).wp post (r.set address value)
  | .note _ next, r | .pause _ next, r => next.wp post r

/-- What has to hold between two parts of a sequence: a result is passed on, a fault ends it. -/
def between (f : α → Procedure β) (post : Except Fault β → RegisterFile → Prop) :
    Except Fault α → RegisterFile → Prop
  | .ok a, r => (f a).wp window post r
  | .error fault, r => post (.error fault) r

variable {window} {post post' : Except Fault α → RegisterFile → Prop} {r : RegisterFile}

/-- After a result the continuation has to establish the postcondition. -/
@[simp] theorem between_ok (f : α → Procedure β) (post : Except Fault β → RegisterFile → Prop)
    (a : α) : between window f post (.ok a) = (f a).wp window post :=
  rfl

/-- After a fault nothing more is run, so that the postcondition has to hold at once. -/
@[simp] theorem between_error (f : α → Procedure β) (post : Except Fault β → RegisterFile → Prop)
    (fault : Fault) : between window f post (.error fault) = post (.error fault) :=
  rfl

/-! ## Runs -/

/-- What the precondition promises holds of every run. -/
theorem wp_run {p : Procedure α} {c : Chip} (hc : c.Obeys window)
    (h : p.wp window post c.registers) :
    (p.run Chip.transport c).state.Obeys window ∧
      post (p.run Chip.transport c).result (p.run Chip.transport c).state.registers := by
  -- the induction follows the tree; each access takes the chip where the precondition has gone
  induction p generalizing c with
  | done result => exact ⟨hc, h⟩
  | read address next ih =>
    obtain ⟨value, c', hread, hanswer, hc', hregs⟩ := hc.read address
    simp only [run, Chip.transport, hread]
    exact ih _ hc' (hregs ▸ h value hanswer)
  | write address value next ih =>
    obtain ⟨c', hwrite, hc', hregs⟩ := hc.write address value
    simp only [run, Chip.transport, hwrite]
    exact ih _ hc' (hregs ▸ h)
  | note entry next ih | pause microseconds next ih => exact ih hc h

/-- What a chip shows is settled by its registers if the precondition says so. -/
theorem shows_of_wp {p : Procedure α} {c : Chip} {shown : Except Fault α}
    (h : p.wp none (fun result _ => result = shown) c.registers) : c.shows p = shown := by
  have hc : { c with failRead := none, failWrite := none : Chip }.Obeys none :=
    ⟨rfl, rfl, fun _ hw => by cases hw⟩
  exact (wp_run hc h).2

/-! ## Rules -/

theorem wp_true (p : Procedure α) (r : RegisterFile) : p.wp window (fun _ _ => True) r := by
  induction p generalizing r with
  | done result => trivial
  | read address next ih => exact fun value _ => ih _ r
  | write address value next ih => exact ih _ _
  | note entry next ih | pause microseconds next ih => exact ih r

/-- What follows from the postcondition can be asked for instead. -/
theorem wp_mono {p : Procedure α} (h : p.wp window post r)
    (hpost : ∀ result r', post result r' → post' result r') : p.wp window post' r := by
  induction p generalizing r with
  | done result => exact hpost _ _ h
  | read address next ih => exact fun value hanswer => ih _ (h value hanswer)
  | write address value next ih => exact ih _ h
  | note entry next ih | pause microseconds next ih => exact ih h

theorem wp_congr {p : Procedure α} (hpost : ∀ result r', post result r' ↔ post' result r') :
    p.wp window post r ↔ p.wp window post' r :=
  ⟨fun h => wp_mono h fun result r' => (hpost result r').1,
    fun h => wp_mono h fun result r' => (hpost result r').2⟩

/-- Two postconditions that hold of every run hold of it together. -/
theorem wp_and {p : Procedure α} (h : p.wp window post r) (h' : p.wp window post' r) :
    p.wp window (fun result r' => post result r' ∧ post' result r') r := by
  induction p generalizing r with
  | done result => exact ⟨h, h'⟩
  | read address next ih => exact fun value hanswer => ih _ (h value hanswer) (h' value hanswer)
  | write address value next ih => exact ih _ h h'
  | note entry next ih | pause microseconds next ih => exact ih h h'

@[simp] theorem wp_pure (a : α) : (pure a : Procedure α).wp window post r ↔ post (.ok a) r :=
  Iff.rfl

@[simp] theorem wp_fail (fault : Fault) :
    (fail fault : Procedure α).wp window post r ↔ post (.error fault) r :=
  Iff.rfl

@[simp] theorem wp_ofExcept (result : Except Fault α) :
    (ofExcept result).wp window post r ↔ post result r :=
  Iff.rfl

@[simp] theorem wp_log (entry : Note) {post : Except Fault Unit → RegisterFile → Prop} :
    (log entry).wp window post r ↔ post (.ok ()) r :=
  Iff.rfl

/-- A sequence is computed from its end: the precondition of the continuation is the postcondition
of the first part. -/
@[simp] theorem wp_bind {p : Procedure α} {f : α → Procedure β}
    {post : Except Fault β → RegisterFile → Prop} :
    (p >>= f).wp window post r ↔ p.wp window (between window f post) r := by
  show (p.bind f).wp window post r ↔ _
  induction p generalizing r with
  | done result => cases result <;> rfl
  | read address next ih => simp only [Procedure.bind, wp, ih]
  | write address value next ih => simp only [Procedure.bind, wp, ih]
  | note entry next ih | pause microseconds next ih => exact ih

/-- A sequence that returns something has gone through both of its parts. -/
theorem wp_bind_of_ok {p : Procedure α} {f : α → Procedure β} {mid : α → RegisterFile → Prop}
    {last : β → RegisterFile → Prop}
    (hp : p.wp window (fun result r' => ∀ a, result = .ok a → mid a r') r)
    (hf : ∀ a r', mid a r' →
      (f a).wp window (fun result r'' => ∀ b, result = .ok b → last b r'') r') :
    (p >>= f).wp window (fun result r' => ∀ b, result = .ok b → last b r') r := by
  rw [wp_bind]
  refine wp_mono hp fun result r' hmid => ?_
  cases result with
  | ok a => exact hf a r' (hmid a rfl)
  | error fault => rintro _ ⟨⟩

@[simp] theorem wp_map {p : Procedure α} {f : α → β}
    {post : Except Fault β → RegisterFile → Prop} :
    (f <$> p).wp window post r ↔ p.wp window (fun result => post (result.map f)) r := by
  rw [← bind_pure_comp, wp_bind]
  have heq : between window (fun a => pure (f a)) post = fun result => post (result.map f) := by
    funext result r'
    cases result <;> rfl
  rw [heq]

/-- An attempted procedure leaves the same registers and hands its result on as a value, a fault
too. -/
@[simp] theorem wp_attempt {p : Procedure α}
    {post : Except Fault (Except Fault α) → RegisterFile → Prop} :
    p.attempt.wp window post r ↔ p.wp window (fun result => post (.ok result)) r := by
  induction p generalizing r with
  | done result => rfl
  | read address next ih => simp only [attempt, wp, ih]
  | write address value next ih => simp only [attempt, wp, ih]
  | note entry next ih | pause microseconds next ih => exact ih

@[simp] theorem wp_forceAll_nil {post : Except Fault Unit → RegisterFile → Prop} :
    (forceAll []).wp window post r ↔ post (.ok ()) r :=
  Iff.rfl

/-- The rest of forced procedures is run whatever the first one ends with, and their results are
joined in the end. -/
@[simp] theorem wp_forceAll_cons (p : Procedure Unit) (rest : List (Procedure Unit))
    {post : Except Fault Unit → RegisterFile → Prop} :
    (forceAll (p :: rest)).wp window post r ↔
      p.wp window (fun first =>
        (forceAll rest).wp window fun others => post (first *> others)) r := by
  rw [forceAll, wp_bind, wp_attempt]
  refine wp_congr fun first r' => ?_
  rw [between_ok, wp_bind, wp_attempt]
  rfl

/-! ## Register access -/

/-- A stored register is read as it is. -/
theorem wp_readByte {address : Address} (h : (Site.at address).isStored)
    {post : Except Fault Byte → RegisterFile → Prop} :
    (readByte address).wp window post r ↔ post (.ok (r.get address)) r := by
  show (∀ value, Answers window r address value → post (.ok value) r) ↔ _
  simp only [answers_iff_of_stored h, forall_eq]

@[simp] theorem wp_writeByte (address : Address) (value : Byte)
    {post : Except Fault Unit → RegisterFile → Prop} :
    (writeByte address value).wp window post r ↔ post (.ok ()) (r.set address value) :=
  Iff.rfl

/-- A change of a stored register is applied to what the register holds. -/
theorem wp_modify {address : Address} (h : (Site.at address).isStored) (change : Byte → Byte)
    {post : Except Fault Unit → RegisterFile → Prop} :
    (modify address change).wp window post r ↔
      post (.ok ()) (r.set address (change (r.get address))) := by
  rw [modify, wp_bind, wp_readByte h, between_ok, wp_writeByte]

/-- A field of a stored register is read as it is. -/
theorem wp_load {w : Nat} {field : BitField w} (h : (Site.at field.address).isStored)
    {post : Except Fault (BitVec w) → RegisterFile → Prop} :
    (load field).wp window post r ↔ post (.ok (r.field field)) r := by
  rw [load, wp_bind, wp_readByte h, between_ok, wp_pure]
  rfl

/-- Assigning a field reads its register and writes it back with the field set. -/
theorem wp_assign {w : Nat} {field : BitField w} (h : (Site.at field.address).isStored)
    (value : BitVec w) {post : Except Fault Unit → RegisterFile → Prop} :
    (assign field value).wp window post r ↔ post (.ok ()) (r.assign field value) :=
  wp_modify h _

theorem wp_put {flag : Flag} (h : (Site.at flag.address).isStored) (on : Bool)
    {post : Except Fault Unit → RegisterFile → Prop} :
    (put flag on).wp window post r ↔ post (.ok ()) (r.put flag on) :=
  wp_modify h _

/-! ## Frames -/

/-- Registers that a procedure does not write keep their contents. -/
theorem wp_of_writesOnly {W : Address → Byte → Prop} {p : Procedure α} (h : p.WritesOnly W)
    (r : RegisterFile) :
    p.wp window (fun _ r' => ∀ address, (∀ value, ¬ W address value) →
      r'.get address = r.get address) r := by
  induction p generalizing r with
  | done result => exact fun _ _ => rfl
  | read address next ih => exact fun value _ => ih _ (h _) r
  | write address value next ih =>
    refine wp_mono (ih _ (h.2 true) _) fun _ r' hkept a ha => ?_
    have hne : address ≠ a := by
      rintro rfl
      exact ha value h.1
    rw [hkept a ha, RegisterFile.get_set_of_ne _ hne]
  | note entry next ih | pause microseconds next ih => exact ih h r

/-- A procedure that writes some registers only keeps the contents of all others besides what else
it does. -/
theorem wp_framed {registers : List Address} {p : Procedure α} {last : α → RegisterFile → Prop}
    (hwrites : p.WritesOnly fun address _ => address ∈ registers)
    (h : p.wp window (fun result r' => ∀ a, result = .ok a → last a r') r) :
    p.wp window (fun result r' => ∀ a, result = .ok a → last a r' ∧
      ∀ address, address ∉ registers → r'.get address = r.get address) r :=
  wp_mono (wp_and h (wp_of_writesOnly hwrites r)) fun _ _ hboth a ha =>
    ⟨hboth.1 a ha, fun address hout => hboth.2 address fun _ => hout⟩

/-! ## What is kept -/

/-- However the procedure ends, `P` holds of the registers in the end if it held at the start. -/
def Keeps (window : Option (Byte × Byte)) (P : RegisterFile → Prop) (p : Procedure α) : Prop :=
  ∀ r, P r → p.wp window (fun _ r' => P r') r

variable {P : RegisterFile → Prop}

theorem keeps_pure (a : α) : (pure a : Procedure α).Keeps window P :=
  fun _ h => h

/-- What both parts of a sequence keep, the sequence keeps, also if it ends after the first part. -/
theorem Keeps.bind {p : Procedure α} {f : α → Procedure β} (hp : p.Keeps window P)
    (hf : ∀ a, (f a).Keeps window P) : (p >>= f).Keeps window P := by
  intro r h
  rw [wp_bind]
  refine wp_mono (hp r h) fun result r' h' => ?_
  cases result with
  | ok a => exact hf a r' h'
  | error fault => exact h'

theorem Keeps.map {p : Procedure α} (hp : p.Keeps window P) (f : α → β) :
    (f <$> p).Keeps window P :=
  fun r h => wp_map.2 (hp r h)

/-- What a procedure keeps it keeps part by part. -/
theorem compositional_keeps (window : Option (Byte × Byte)) (P : RegisterFile → Prop) :
    Compositional fun p => p.Keeps window P where
  done _ := fun _ h => h
  log _ _ := fun _ h => h
  bind := Keeps.bind
  attempt hp := fun r h => wp_attempt.2 (hp r h)

end Procedure

/-! ## Sessions -/

/-- A command leaves the chip as its procedure does, whatever it answers. -/
theorem Procedure.state_acknowledge {σ : Type} (t : Transport σ) (p : Procedure Unit) (s : σ) :
    ((acknowledge p).run t s).state = (p.run t s).state := by
  rw [acknowledge, run_bind]
  rcases p.run t s with ⟨_ | _, _, _⟩ <;> rfl

namespace Chip

variable {window : Option (Byte × Byte)}

/-- The chip after some commands, one after the other, whatever becomes of each. -/
def after (c : Chip) (commands : List Command) : Chip :=
  commands.foldl (fun c command => (command.procedure.run transport c).state) c

@[simp] theorem after_nil (c : Chip) : c.after [] = c :=
  rfl

@[simp] theorem after_cons (c : Chip) (command : Command) (rest : List Command) :
    c.after (command :: rest) = (command.procedure.run transport c).state.after rest :=
  rfl

/-- Commands can be run in two goes. -/
theorem after_append (c : Chip) (first second : List Command) :
    c.after (first ++ second) = (c.after first).after second :=
  List.foldl_append

/-- What every command keeps is kept by all of them. -/
theorem Obeys.after_keeps {c : Chip} (hc : c.Obeys window) {P : RegisterFile → Prop}
    {commands : List Command} (hkeeps : ∀ command ∈ commands, command.procedure.Keeps window P)
    (h : P c.registers) : (c.after commands).Obeys window ∧ P (c.after commands).registers := by
  induction commands generalizing c with
  | nil => exact ⟨hc, h⟩
  | cons command rest ih =>
    have hfirst := hkeeps command List.mem_cons_self c.registers h
    obtain ⟨hc', h'⟩ := Procedure.wp_run hc hfirst
    exact ih hc' (fun other hmem => hkeeps other (List.mem_cons_of_mem _ hmem)) h'

/-- No commands make a chip refuse anything, and none takes its window away. -/
theorem Obeys.after {c : Chip} (hc : c.Obeys window) (commands : List Command) :
    (c.after commands).Obeys window := by
  have hkeeps (command : Command) : command.procedure.Keeps window fun _ => True :=
    fun r _ => Procedure.wp_true _ r
  exact (hc.after_keeps (fun command _ => hkeeps command) trivial).1

end Chip

end Transceiver
