import StyleMacros.Proofs.Command.Steps

/-!
# Calls

A call reads its arguments, finds its settings and performs its command, and it exits with success
exactly if all goes well. What stands behind `check` means the same behind `generate`.
-/

set_option autoImplicit false

namespace StyleMacros

/-! ## Arguments -/

section Arguments

variable {given after before : Given} {front back : List Text} {options : CallOptions}
  {roots : List Path} {outDir : Option Path}

theorem Given.bind_read_append {step : Except Interruption Given} {rest : List Text} {word : Text}
    (further : ∀ next, Given.read none next rest = .ok (after, []) →
      Given.read none next (rest ++ word :: back) = .ok (after, word :: back))
    (read : (step >>= fun next => Given.read none next rest) = .ok (after, [])) :
    (step >>= fun next => Given.read none next (rest ++ word :: back)) =
      .ok (after, word :: back) := by
  obtain ⟨next, taken, behind⟩ := bind_eq_ok_iff.mp read
  exact bind_eq_ok_iff.mpr ⟨next, taken, further next behind⟩

theorem Given.read_append_command {word : Text} (operand : ArgumentForm.of word = .operand)
    (read : Given.read none given front = .ok (after, [])) :
    Given.read none given (front ++ word :: back) = .ok (after, word :: back) := by
  fun_induction Given.read none given front
  -- Faults and operands end the reading before the end of the arguments.
  case case2 | case4 | case7 | case9 | case10 | case12 => cases read
  case case3 other => cases other
  case case5 other _ => cases other
  case case1 given =>
    cases read
    rw [List.nil_append, Given.read, operand]
  case case6 given argument rest letters form inductionHypothesis =>
    rw [List.cons_append, Given.read, form]
    exact bind_read_append inductionHypothesis read
  case case8 given argument rest name option found value takes form inductionHypothesis =>
    rw [List.cons_append, Given.read, form]
    simp only [found, if_pos takes]
    exact bind_read_append inductionHypothesis read
  case case11 given argument name option found takes value rest apart form inductionHypothesis =>
    rw [List.cons_append, List.cons_append, Given.read, form]
    simp only [found, if_pos takes, if_pos apart]
    exact bind_read_append inductionHypothesis read
  case case13 given argument rest name option found takes form inductionHypothesis =>
    rw [List.cons_append, Given.read, form]
    simp only [found, if_neg takes]
    exact bind_read_append inductionHypothesis read

/-- Both commands admit the same options and any number of operands. -/
theorem Given.read_check (given : Given) (arguments : List Text) :
    Given.read (some .check) given arguments = Given.read (some .generate) given arguments := by
  have admitted : OptionName.admitted (some .generate) = OptionName.admitted (some .check) := rfl
  have letters : Given.addLetter (some .generate) = Given.addLetter (some .check) := rfl
  have operands : Given.addOperand .generate = Given.addOperand .check := rfl
  fun_induction Given.read (some .check) given arguments
  all_goals rw [Given.read] <;> simp_all [-List.find?_eq_none]

theorem Command.ofGiven_generate_of_check
    (asked : Command.ofGiven .check given = .ok (.check roots outDir)) :
    Command.ofGiven .generate given = .ok (.generate roots outDir) := by
  unfold Command.ofGiven at asked ⊢
  cases paths : given.operands.map Path.mk with
  | nil =>
      simp only [paths] at asked
      cases asked
  | cons first others =>
      simp only [paths] at asked ⊢
      cases asked
      rfl

theorem Request.ofCommand_name (before : Given) (name : CommandName) (back : List Text) :
    Request.ofCommand before (name.text :: back) = (do
      let (behind, _) ← Given.read (some name) {} back
      let command ← (Command.ofGiven name behind).mapError Interruption.fault
      return .run (.ofGiven before behind) command) := by
  have known : CommandName.ofText? name.text = some name := by cases name <;> decide
  have command : name.text ≠ helpWord := by cases name <;> decide
  unfold Request.ofCommand
  simp only [if_neg command, known]

theorem Request.ofCommand_generate_of_check
    (asked : Request.ofCommand before (CommandName.check.text :: back) =
      .ok (.run options (.check roots outDir))) :
    Request.ofCommand before (CommandName.generate.text :: back) =
      .ok (.run options (.generate roots outDir)) := by
  rw [ofCommand_name] at asked ⊢
  obtain ⟨⟨behind, rest⟩, read, asked⟩ := bind_eq_ok_iff.mp asked
  obtain ⟨command, given, asked⟩ := bind_eq_ok_iff.mp asked
  cases asked
  have made : Command.ofGiven .check behind = .ok (.check roots outDir) := by
    cases made : Command.ofGiven .check behind with
    | error fault =>
        rw [made] at given
        cases given
    | ok command =>
        rw [made] at given
        cases given
        rfl
  rw [Given.read_check] at read
  refine bind_eq_ok_iff.mpr ⟨_, read, bind_eq_ok_iff.mpr ⟨.generate roots outDir, ?_, rfl⟩⟩
  rw [Command.ofGiven_generate_of_check made]
  rfl

theorem Request.ofArguments_eq_run_iff {arguments : List Text} {command : Command} :
    Request.ofArguments arguments = .ok (.run options command) ↔
      ∃ before rest, Given.read none {} arguments = .ok (before, rest) ∧
        Request.ofCommand before rest = .ok (.run options command) := by
  have outcome : Request.ofArguments arguments = .ok (.run options command) ↔
      (Given.read none {} arguments).bind (fun read => Request.ofCommand read.1 read.2) =
        .ok (.run options command) := by
    unfold Request.ofArguments
    simp only [bind]
    rcases (Given.read none {} arguments).bind (fun read => Request.ofCommand read.1 read.2) with
      (_ | _ | _) | request <;> simp
  rw [outcome, bind_eq_ok_iff]
  exact Prod.exists

theorem Request.ofArguments_generate_of_check
    (leading : Given.read none {} front = .ok (given, []))
    (asked : Request.ofArguments (front ++ CommandName.check.text :: back) =
      .ok (.run options (.check roots outDir))) :
    Request.ofArguments (front ++ CommandName.generate.text :: back) =
      .ok (.run options (.generate roots outDir)) := by
  rw [ofArguments_eq_run_iff] at asked ⊢
  obtain ⟨before, rest, read, asked⟩ := asked
  rw [Given.read_append_command (by decide) leading] at read
  cases read
  exact ⟨given, _, Given.read_append_command (by decide) leading, ofCommand_generate_of_check asked⟩

end Arguments

/-! ## Settings and exits -/

section Calls

variable {settings : Settings} {path : Path} {coloured : Bool} {before after : HostState}

theorem succeeds_applies_iff {mode : ColourMode} :
    (mode.applies : Action (StateM HostState) Bool).Succeeds before coloured after ↔
      decide (mode = .always) = coloured ∧ before = after := by
  cases mode with
  | always => exact succeeds_pure_iff
  | never => exact succeeds_pure_iff
  | auto =>
      change Action.Succeeds (ExceptT.lift fun state => (false, state)) _ _ _ ↔ _
      rw [succeeds_lift_iff]
      exact iff_of_eq (Prod.mk.injEq ..)

def Workspace.HoldsSettings (workspace : Workspace) (path : Path) (settings : Settings) : Prop :=
  ∃ content, workspace.readText path = .ok content ∧ Settings.ofYaml content = .ok settings

theorem succeeds_readSettings_iff :
    (readSettings path).Succeeds before settings after ↔
      before.workspace.HoldsSettings path settings ∧ before = after := by
  simp only [readSettings, succeeds_bind_iff, succeeds_atPath_iff, succeeds_ofExcept_iff]
  constructor
  · rintro ⟨content, _, looked, accepted, rfl⟩
    obtain ⟨read, rfl⟩ := Prod.mk.inj looked
    exact ⟨⟨content, read, accepted⟩, rfl⟩
  · rintro ⟨⟨content, read, accepted⟩, rfl⟩
    exact ⟨content, before, Prod.ext read rfl, accepted, rfl⟩

/-- The settings that a call finds: those of the named file, of the usual file if it is there, or
the standard ones. -/
def Workspace.Loads (workspace : Workspace) (file : Option Path) (settings : Settings) : Prop :=
  match file with
  | some path => workspace.HoldsSettings path settings
  | none =>
    if workspace.isFile defaultSettingsFile then
      workspace.HoldsSettings defaultSettingsFile settings
    else {} = settings

theorem succeeds_loadSettings_iff {file : Option Path} :
    (loadSettings file).Succeeds before settings after ↔
      before.workspace.Loads file settings ∧ before = after := by
  cases file with
  | some path => exact succeeds_readSettings_iff
  | none =>
      simp only [loadSettings, succeeds_bind_iff, succeeds_isFile_iff, Workspace.Loads]
      constructor
      · rintro ⟨_, _, ⟨rfl, rfl⟩, found⟩
        split at found <;> rename_i present
        · rw [if_pos present]
          exact succeeds_readSettings_iff.mp found
        · rw [if_neg present]
          exact succeeds_pure_iff.mp found
      · rintro ⟨found, rfl⟩
        refine ⟨_, before, ⟨rfl, rfl⟩, ?_⟩
        split at found <;> rename_i present
        · rw [if_pos present]
          exact succeeds_readSettings_iff.mpr ⟨found, rfl⟩
        · rw [if_neg present]
          exact succeeds_pure_iff.mpr ⟨found, rfl⟩

theorem succeeds_run_iff {options : CallOptions} {command : Command} {well : Bool} :
    (command.run options : Action (StateM HostState) Bool).Succeeds before well after ↔
      ∃ settings, before.workspace.Loads options.settingsFile settings ∧
        (command.perform settings (decide (options.colours = .always))).Succeeds before well
          after := by
  simp only [Command.run, succeeds_bind_iff, succeeds_applies_iff, succeeds_loadSettings_iff]
  constructor
  · rintro ⟨_, _, ⟨rfl, rfl⟩, settings, _, ⟨loaded, rfl⟩, done⟩
    exact ⟨settings, loaded, done⟩
  · rintro ⟨settings, loaded, done⟩
    exact ⟨_, before, ⟨rfl, rfl⟩, settings, before, ⟨loaded, rfl⟩, done⟩

/-- A call for a command exits with success if and only if all goes well. -/
theorem runArguments_eq_success_iff {arguments : List Text} {options : CallOptions}
    {command : Command} (asked : Request.ofArguments arguments = .ok (.run options command)) :
    runArguments (m := StateM HostState) arguments before = (.success, after) ↔
      (command.run options : Action (StateM HostState) Bool).Succeeds before true after := by
  unfold runArguments
  simp only [asked, bind, StateT.bind, ExceptT.run, Action.Succeeds, Action.ending, StateT.run]
  rcases (command.run options : Action (StateM HostState) Bool) before with
    ⟨diagnostic | _ | _, last⟩
  · constructor <;> (intro same; cases same)
  · constructor <;> (intro same; cases same)
  · constructor <;> (intro same; cases same; rfl)

end Calls

end StyleMacros
