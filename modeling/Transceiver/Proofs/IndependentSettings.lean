import Transceiver.Proofs.CalibrationSettings
import Transceiver.Proofs.Setters

/-!
# Independent settings

The register file refines a record of settings. Whatever commands are given, each getter shows what
the last successful setter of its own setting has established, and what it showed before if there
was none. One command is a step of the record. It sets the setting that it establishes, since all
setters do, and no other, since it does not reach their footprints. A session is one such step after
the other.
-/

namespace Transceiver

open Procedure

/-! ## Histories of results -/

/-- The commands of a session, each with what it returned. -/
def Chip.history (c : Chip) : List Command → List (Command × Except Fault Reply)
  | [] => []
  | command :: rest =>
    (command, (command.procedure.run transport c).result) ::
      (command.procedure.run transport c).state.history rest

namespace Setting

/-- What a command has established for a setting, by what the command returned. -/
def established (setting : Setting) (entry : Command × Except Fault Reply) : Option Reply :=
  match entry.2, entry.1.establishes with
  | .ok _, some (other, value) => if other = setting then some value else none
  | _, _ => none

/-- What a setting shows after a history: what the last successful setter has established, and what
it showed `before` if there was none. -/
def shownAfter (setting : Setting) (history : List (Command × Except Fault Reply))
    (before : Except Fault Reply) : Except Fault Reply :=
  match (history.filterMap setting.established).getLast? with
  | some value => .ok value
  | none => before

variable {setting : Setting} {command : Command} {before : Except Fault Reply}

theorem shownAfter_of_established {entry : Command × Except Fault Reply} {value : Reply}
    (h : setting.established entry = some value) :
    setting.shownAfter [entry] before = .ok value := by
  simp [shownAfter, h]

theorem shownAfter_of_not_established {entry : Command × Except Fault Reply}
    (h : setting.established entry = none) : setting.shownAfter [entry] before = before := by
  simp [shownAfter, h]

/-- What the first command establishes shows until something else is established. -/
theorem shownAfter_cons (setting : Setting) (entry : Command × Except Fault Reply)
    (rest : List (Command × Except Fault Reply)) (before : Except Fault Reply) :
    setting.shownAfter (entry :: rest) before =
      setting.shownAfter rest (setting.shownAfter [entry] before) := by
  cases hfirst : setting.established entry with
  | none =>
    rw [shownAfter_of_not_established hfirst]
    simp [shownAfter, hfirst]
  | some value =>
    rw [shownAfter_of_established hfirst]
    simp only [shownAfter, List.filterMap_cons, hfirst, List.getLast?_cons]
    cases (rest.filterMap setting.established).getLast? <;> rfl

/-- A successful setter establishes its value. -/
theorem established_of_ok {value reply : Reply} (h : command.establishes = some (setting, value)) :
    setting.established (command, .ok reply) = some value := by
  simp [established, h]

/-- A failing command establishes nothing. -/
theorem established_error (setting : Setting) (command : Command) (fault : Fault) :
    setting.established (command, .error fault) = none := by
  simp [established]

/-- A command establishes no setting but its own. -/
theorem established_of_other (h : ∀ value, command.establishes ≠ some (setting, value))
    (result : Except Fault Reply) : setting.established (command, result) = none := by
  unfold established
  split
  · next other value _ hsets =>
    have hne : other ≠ setting := fun heq => h value (heq ▸ hsets)
    exact if_neg hne
  · rfl

end Setting

/-- What the setter of a value returns: nothing or the value itself. A value that stands for no
setting is refused. -/
def Reply.Acknowledged (value : Reply) (result : Except Fault Reply) : Prop :=
  if value.isUnknown then result = .error .invalidArgument
  else result = .ok .unit ∨ result = .ok value

theorem Setting.SetTo.acknowledged {setting : Setting} {value : Reply} {r r' : RegisterFile}
    {result : Except Fault Reply} (h : setting.SetTo value r result r') :
    value.Acknowledged result := by
  unfold SetTo at h
  unfold Reply.Acknowledged
  split <;> simp_all

/-! ## One command -/

namespace Chip

variable {w : Byte × Byte} {c : Chip} {command : Command}

/-- A setting shows the same after every command that does not establish it. -/
theorem settings_of_not_establishes (hc : c.Obeys (some w)) (hselective : command.isSelective)
    {setting : Setting} (hother : ∀ value, command.establishes ≠ some (setting, value)) :
    (command.procedure.run transport c).state.settings setting = c.settings setting := by
  cases hcalibration : command.isCalibration with
  | true =>
    cases command with
    | calibrate b =>
      show ((acknowledge (Calibration.calibrate b)).run transport c).state.settings setting = _
      rw [Procedure.state_acknowledge, Calibration.calibrate_keeps_settings hc]
    | _ => cases hcalibration
  | false =>
    have hkeeps : command.procedure.KeepsTo (some w) command.reach :=
      Command.keepsTo_reach hselective hcalibration
    obtain ⟨-, hreach⟩ := wp_run hc (hkeeps c.registers c.registers (.refl _))
    rw [settings_eq, settings_eq]
    exact Setting.shown_congr (hreach.agreeOn (Command.reach_apart hother))

/-- A command is a step of the record of settings: it sets the one that it establishes, if it is
successful, and no other. -/
theorem settings_step (hc : c.Obeys (some w)) (hw : Synthesizer.Locks w)
    (hselective : command.isSelective) (setting : Setting) :
    (command.procedure.run transport c).state.settings setting =
      setting.shownAfter [(command, (command.procedure.run transport c).result)]
        (c.settings setting) := by
  by_cases hsets : ∃ value, command.establishes = some (setting, value)
  · obtain ⟨value, h⟩ := hsets
    obtain ⟨-, hset⟩ := wp_run hc (Command.wp_establishes hw h)
    unfold Setting.SetTo at hset
    split at hset
    · obtain ⟨hresult, hsame⟩ := hset
      rw [hresult, Setting.shownAfter_of_not_established (setting.established_error _ _),
        settings_eq, settings_eq, hsame]
    · obtain ⟨hresult, hshown⟩ := hset
      rw [settings_eq, hshown]
      rcases hresult with hresult | hresult <;>
        rw [hresult, Setting.shownAfter_of_established (Setting.established_of_ok h)]
  · have hother (value : Reply) : command.establishes ≠ some (setting, value) :=
      fun h => hsets ⟨value, h⟩
    rw [settings_of_not_establishes hc hselective hother,
      Setting.shownAfter_of_not_established (Setting.established_of_other hother _)]

theorem acknowledged_of_establishes (hc : c.Obeys (some w)) (hw : Synthesizer.Locks w)
    {setting : Setting} {value : Reply} (h : command.establishes = some (setting, value)) :
    value.Acknowledged (command.procedure.run transport c).result :=
  (wp_run hc (Command.wp_establishes hw h)).2.acknowledged

/-! ## Sessions -/

variable {commands : List Command}

/-- After a session each setting shows what has last been established for it. -/
theorem settings_after (hc : c.Obeys (some w)) (hw : Synthesizer.Locks w)
    (hselective : ∀ command ∈ commands, command.isSelective) (setting : Setting) :
    (c.after commands).settings setting =
      setting.shownAfter (c.history commands) (c.settings setting) := by
  induction commands generalizing c with
  | nil => rfl
  | cons command rest ih =>
    obtain ⟨hfirst, hrest⟩ := List.forall_mem_cons.1 hselective
    have hobeys := (wp_run hc (wp_true command.procedure c.registers)).1
    rw [after_cons, ih hobeys hrest, settings_step hc hw hfirst setting, history,
      ← Setting.shownAfter_cons]

/-- Every setter of a session returns what setters return. -/
theorem acknowledged_of_mem_history (hc : c.Obeys (some w)) (hw : Synthesizer.Locks w)
    {entry : Command × Except Fault Reply} (hmem : entry ∈ c.history commands) {setting : Setting}
    {value : Reply} (h : entry.1.establishes = some (setting, value)) :
    value.Acknowledged entry.2 := by
  induction commands generalizing c with
  | nil => cases hmem
  | cons command rest ih =>
    rw [history] at hmem
    rcases List.mem_cons.1 hmem with rfl | hmem
    · exact acknowledged_of_establishes hc hw h
    · exact ih (wp_run hc (wp_true command.procedure c.registers)).1 hmem

/-- On a chip that refuses no access and whose VCOs lock, the getters show a record of independent
settings. In any session every setter is successful, unless it asks for what stands for no setting,
and in the end each getter shows the value of the last successful setter of its own setting, or what
it showed before the session if there was none. -/
theorem settings_independent (commands : List Command)
    (hselective : ∀ command ∈ commands, command.isSelective) (c : Chip) (hread : c.failRead = none)
    (hwrite : c.failWrite = none) (hwindow : c.window = some w) (hvoltages : c.voltages = [])
    (hlocks : Synthesizer.Locks w) :
    (∀ setting, (c.after commands).settings setting =
      setting.shownAfter (c.history commands) (c.settings setting)) ∧
    ∀ entry ∈ c.history commands, ∀ setting value, entry.1.establishes = some (setting, value) →
      value.Acknowledged entry.2 := by
  have hc : c.Obeys (some w) := by
    refine ⟨hread, hwrite, fun w' hw' => ?_⟩
    obtain rfl : w = w' := Option.some.inj hw'
    exact ⟨hwindow, hvoltages⟩
  exact ⟨settings_after hc hlocks hselective,
    fun entry hmem setting value h => acknowledged_of_mem_history hc hlocks hmem h⟩

/-- A gain out of range survives a calibration at other gains as what it was clamped to, and a
request that is refused leaves the input of the ADC as it was. -/
theorem settings_independent_calibrated :
    let commands : List Command := [
      .setGain (.db .rxvga1 33), .setFrequency .tx 2400000000, .setSampling .unknown,
      .calibrate .rxvga2]
    let after := initial.after commands
    after.settings (.gain (.db .rxvga1)) = .ok (.gain (.db .rxvga1 30)) ∧
      after.settings (.dividers .tx) = .ok (.dividers (Divider.ofHz 2400000000)) ∧
      after.settings .sampling = initial.settings .sampling := by
  intro commands after
  obtain ⟨hsettings, -⟩ := settings_independent commands (by decide) initial rfl rfl rfl rfl
    ⟨32, by decide⟩
  -- however the calibration ends, it establishes nothing
  have hshown (setting : Setting) : after.settings setting =
      setting.shownAfter (initial.history (commands.take 3)) (initial.settings setting) := by
    have hnone (result : Except Fault Reply) :
        setting.established (.calibrate .rxvga2, result) = none :=
      Setting.established_of_other (by simp [Command.establishes]) result
    rw [hsettings]
    simp only [commands, Chip.history, Setting.shownAfter, List.filterMap_cons, hnone, List.take]
  exact ⟨(hshown _).trans rfl, (hshown _).trans rfl, (hshown _).trans rfl⟩

end Chip

end Transceiver
