import StyleMacros.Command.Run
import StyleMacros.Proofs.Files.Places

/-!
# What the steps of a command do

On the host that is made of a workspace alone, an action that succeeds has succeeded step by
step. There is one lemma for each kind of step, and from them one for each action of `generate`
and `check`: which result it has, and what it leaves.
-/

set_option autoImplicit false

namespace StyleMacros

def Action.ending {Result : Type} (action : Action (StateM HostState) Result)
    (before : HostState) : Except Diagnostic Result × HostState :=
  action.run.run before

def Action.Succeeds {Result : Type} (action : Action (StateM HostState) Result)
    (before : HostState) (result : Result) (after : HostState) : Prop :=
  action.ending before = (.ok result, after)

section Steps

variable {First Result : Type} {before after : HostState} {result : Result} {path : Path}

open StyleMacros.Action

/-! ## Kinds of steps -/

theorem succeeds_pure_iff {value : Result} :
    Succeeds (pure value) before result after ↔ value = result ∧ before = after := by
  have ends : ending (pure value) before = (.ok value, before) := rfl
  rw [Succeeds, ends, Prod.mk.injEq, Except.ok.injEq]

theorem ending_bind (first : Action (StateM HostState) First)
    (next : First → Action (StateM HostState) Result) (before : HostState) :
    (first >>= next).ending before =
      match first.ending before with
      | (.ok value, middle) => (next value).ending middle
      | (.error diagnostic, middle) => (.error diagnostic, middle) := by
  simp only [ending, bind, ExceptT.bind, ExceptT.bindCont, ExceptT.mk, ExceptT.run, StateT.run,
    StateT.bind]
  rcases first before with ⟨_ | _, _⟩ <;> rfl

theorem succeeds_bind_iff {first : Action (StateM HostState) First}
    {next : First → Action (StateM HostState) Result} :
    (first >>= next).Succeeds before result after ↔ ∃ value middle,
      first.Succeeds before value middle ∧ (next value).Succeeds middle result after := by
  simp only [Succeeds, ending_bind]
  rcases first.ending before with ⟨_ | value, middle⟩
  · simp
  · simp only [Prod.mk.injEq, Except.ok.injEq]
    constructor
    · exact fun found => ⟨value, middle, ⟨rfl, rfl⟩, found⟩
    · rintro ⟨_, _, ⟨rfl, rfl⟩, found⟩
      exact found

theorem not_succeeds_throw {diagnostic : Diagnostic} :
    ¬ Succeeds (throw diagnostic) before result after := by
  have ends : (throw diagnostic : Action (StateM HostState) Result).ending before =
      (.error diagnostic, before) := rfl
  rw [Succeeds, ends]
  simp

theorem succeeds_lift_iff {step : StateM HostState Result} :
    Succeeds (ExceptT.lift step) before result after ↔ step before = (result, after) := by
  have ends : ending (ExceptT.lift step) before =
      (.ok (step before).1, (step before).2) := rfl
  rw [Succeeds, ends, Prod.mk.injEq, Except.ok.injEq]
  constructor
  · rintro ⟨rfl, rfl⟩
    rfl
  · rintro same
    rw [same]
    exact ⟨rfl, rfl⟩

theorem succeeds_atPath_iff {step : StateM HostState (Except FileFault Result)} :
    (atPath path step).Succeeds before result after ↔ step before = (.ok result, after) := by
  have ends : (atPath path step).ending before =
      ((step before).1.mapError (FileFault.diagnostic · path), (step before).2) := rfl
  rw [Succeeds, ends]
  rcases step before with ⟨_ | value, middle⟩
  · exact iff_of_false (fun same => nomatch same) (fun same => nomatch same)
  · constructor <;> (intro same; cases same; rfl)

theorem succeeds_ofExcept_iff {Fault : Type} {diagnostic : Fault → Diagnostic}
    {outcome : Except Fault Result} :
    (ofExcept diagnostic outcome).Succeeds before result after ↔
      outcome = .ok result ∧ before = after := by
  have ends : (ofExcept diagnostic outcome : Action (StateM HostState) Result).ending before =
      (outcome.mapError diagnostic, before) := rfl
  rw [Succeeds, ends]
  cases outcome <;> simp [Except.mapError]

/-! ## Looking and telling -/

theorem succeeds_isFile_iff {file : Bool} :
    Succeeds (Host.isFile path) before file after ↔
      before.workspace.isFile path = file ∧ before = after := by
  change Succeeds (ExceptT.lift fun state => (state.workspace.isFile path, state)) _ _ _ ↔ _
  rw [succeeds_lift_iff]
  exact iff_of_eq (Prod.mk.injEq ..)

theorem succeeds_isDirectory_iff {directory : Bool} :
    Succeeds (Host.isDirectory path) before directory after ↔
      before.workspace.isDirectory path = directory ∧ before = after := by
  change Succeeds (ExceptT.lift fun state => (state.workspace.isDirectory path, state)) _ _ _ ↔ _
  rw [succeeds_lift_iff]
  exact iff_of_eq (Prod.mk.injEq ..)

theorem succeeds_readText_iff {outcome : Except FileFault Text} :
    Succeeds (Host.readText path) before outcome after ↔
      before.workspace.readText path = outcome ∧ before = after := by
  change Succeeds (ExceptT.lift fun state => (state.workspace.readText path, state)) _ _ _ ↔ _
  rw [succeeds_lift_iff]
  exact iff_of_eq (Prod.mk.injEq ..)

theorem succeeds_print_iff {text : Text} {done : Unit} :
    Succeeds (Host.print text) before done after ↔
      after = { before with printed := before.printed ++ text } := by
  change Succeeds (ExceptT.lift fun state =>
    ((), { state with printed := state.printed ++ text })) _ _ _ ↔ _
  rw [succeeds_lift_iff]
  exact ⟨fun same => (Prod.mk.inj same).2.symm, fun same => by rw [same]⟩

def HostState.told (state : HostState) (diagnostics : List Diagnostic) : HostState :=
  { state with complaints := state.complaints ++ diagnostics.map .diagnostic }

theorem succeeds_complainAll_iff {diagnostics : List Diagnostic} {done : Unit} :
    Succeeds (complainAll diagnostics) before done after ↔ after = before.told diagnostics := by
  unfold HostState.told
  induction diagnostics generalizing before with
  | nil =>
      rw [complainAll, succeeds_pure_iff]
      simp [eq_comm]
  | cons first rest inductionHypothesis =>
      rw [complainAll, succeeds_bind_iff]
      simp only [Host.complain, succeeds_lift_iff, inductionHypothesis]
      constructor
      · rintro ⟨_, _, ⟨rfl, rfl⟩, rfl⟩
        simp
      · rintro rfl
        exact ⟨_, _, rfl, by simp⟩

end Steps

/-! ## Finding sources -/

section Sources

variable {settings : Settings} {before after : HostState} {root : Path} {roots sources : List Path}

/-- What a root stands for: itself if it is a file, the sources below it if it is a
directory. -/
def Workspace.StandsFor (settings : Settings) (workspace : Workspace) (root : Path)
    (sources : List Path) : Prop :=
  (workspace.isFile root = true ∧ sources = [root]) ∨
    (workspace.isFile root = false ∧ workspace.isDirectory root = true ∧
      ∃ files, workspace.filesBelow root = .ok files ∧ sources = files.filter settings.isSource)

theorem succeeds_sourcesAt_iff :
    (sourcesAt settings root).Succeeds before sources after ↔
      before.workspace.StandsFor settings root sources ∧ before = after := by
  simp only [sourcesAt, succeeds_bind_iff, succeeds_isFile_iff, Workspace.StandsFor]
  cases kind : before.workspace.isFile root with
  | true =>
      constructor
      · rintro ⟨_, _, ⟨rfl, rfl⟩, found⟩
        obtain ⟨rfl, rfl⟩ := succeeds_pure_iff.mp found
        exact ⟨.inl ⟨rfl, rfl⟩, rfl⟩
      · rintro ⟨⟨-, rfl⟩ | ⟨other, -⟩, rfl⟩
        · exact ⟨true, _, ⟨rfl, rfl⟩, succeeds_pure_iff.mpr ⟨rfl, rfl⟩⟩
        · cases other
  | false =>
      constructor
      · rintro ⟨_, _, ⟨rfl, rfl⟩, found⟩
        obtain ⟨directory, _, looked, found⟩ := succeeds_bind_iff.mp found
        obtain ⟨rfl, rfl⟩ := succeeds_isDirectory_iff.mp looked
        cases directory : before.workspace.isDirectory root with
        | false =>
            rw [directory] at found
            obtain ⟨_, _, threw, -⟩ := succeeds_bind_iff.mp found
            exact (not_succeeds_throw threw).elim
        | true =>
            rw [directory] at found
            obtain ⟨files, _, looked, found⟩ := succeeds_bind_iff.mp found
            obtain ⟨listed, rfl⟩ := Prod.mk.inj (succeeds_atPath_iff.mp looked)
            obtain ⟨rfl, rfl⟩ := succeeds_pure_iff.mp found
            exact ⟨.inr ⟨rfl, rfl, files, listed, rfl⟩, rfl⟩
      · rintro ⟨⟨other, -⟩ | ⟨-, directory, files, listed, rfl⟩, rfl⟩
        · cases other
        · refine ⟨false, _, ⟨rfl, rfl⟩, succeeds_bind_iff.mpr ⟨true, before, ?_, ?_⟩⟩
          · exact succeeds_isDirectory_iff.mpr ⟨directory, rfl⟩
          · refine succeeds_bind_iff.mpr ⟨files, before, ?_, succeeds_pure_iff.mpr ⟨rfl, rfl⟩⟩
            exact succeeds_atPath_iff.mpr (Prod.ext listed rfl)

inductive Workspace.StandForAll (settings : Settings) (workspace : Workspace) :
    List Path → List Path → Prop where
  | nil : StandForAll settings workspace [] []
  | cons {root : Path} {rest here behind : List Path}
      (first : workspace.StandsFor settings root here)
      (others : StandForAll settings workspace rest behind) :
      StandForAll settings workspace (root :: rest) (here ++ behind)

theorem succeeds_sourcesUnder_iff :
    (sourcesUnder settings roots).Succeeds before sources after ↔
      before.workspace.StandForAll settings roots sources ∧ before = after := by
  induction roots generalizing sources with
  | nil =>
      rw [sourcesUnder, succeeds_pure_iff]
      constructor
      · rintro ⟨rfl, rfl⟩
        exact ⟨.nil, rfl⟩
      · rintro ⟨⟨⟩, rfl⟩
        exact ⟨rfl, rfl⟩
  | cons root rest inductionHypothesis =>
      simp only [sourcesUnder, succeeds_bind_iff, succeeds_sourcesAt_iff, succeeds_pure_iff]
      constructor
      · rintro ⟨here, _, ⟨first, rfl⟩, behind, _, found, rfl, rfl⟩
        obtain ⟨others, rfl⟩ := inductionHypothesis.mp found
        exact ⟨.cons first others, rfl⟩
      · rintro ⟨all, rfl⟩
        cases all with
        | cons first others =>
            exact ⟨_, _, ⟨first, rfl⟩, _, _, inductionHypothesis.mpr ⟨others, rfl⟩, rfl, rfl⟩

def Workspace.HasPlan (settings : Settings) (workspace : Workspace) (roots : List Path)
    (outDir : Option Path) (plan : List PlannedOutput) : Prop :=
  ∃ sources, workspace.StandForAll settings roots sources ∧
    planOutputs settings outDir (Path.sorted sources) = .ok plan

theorem succeeds_planUnder_iff {outDir : Option Path} {plan : List PlannedOutput} :
    (planUnder settings roots outDir).Succeeds before plan after ↔
      before.workspace.HasPlan settings roots outDir plan ∧ before = after := by
  simp only [planUnder, findSources, succeeds_bind_iff, succeeds_sourcesUnder_iff, succeeds_pure_iff,
    succeeds_ofExcept_iff, Workspace.HasPlan]
  constructor
  · rintro ⟨_, _, ⟨sources, _, ⟨stand, rfl⟩, rfl, rfl⟩, planned, rfl⟩
    exact ⟨⟨sources, stand, planned⟩, rfl⟩
  · rintro ⟨⟨sources, stand, planned⟩, rfl⟩
    exact ⟨_, _, ⟨sources, _, ⟨stand, rfl⟩, rfl, rfl⟩, planned, rfl⟩

end Sources

/-! ## Rendering, writing and comparing -/

/-- What the generated file of a source with a given content has to hold, if anything, and
whether nothing was wrong with its sites. -/
def Settings.generatedFor (settings : Settings) (path : Path) (content : Text) : Option Text × Bool :=
  let expansion := FileExpansion.ofSource ⟨path.text, content⟩ settings.expansion
  if expansion.isEmpty then (none, true)
  else (expansion.render content settings.rendering, !expansion.hasErrors)

theorem Settings.generatedFor_of_readSites_eq_nil {content : Text} (none : readSites content = [])
    (settings : Settings) (path : Path) : settings.generatedFor path content = (.none, true) := by
  have empty : (FileExpansion.ofSource ⟨path.text, content⟩ settings.expansion).isEmpty = true := by
    rw [FileExpansion.isEmpty, FileExpansion.ofSource, none]
    rfl
  exact if_pos empty

section Files

variable {settings : Settings} {coloured well : Bool} {before after : HostState} {path : Path}
  {planned : PlannedOutput} {content : Text}

theorem succeeds_readSource_iff {source : SourceText} :
    (readSource path).Succeeds before source after ↔
      ∃ content, before.workspace.readText path = .ok content ∧ source = ⟨path.text, content⟩ ∧
        before = after := by
  simp only [readSource, succeeds_bind_iff, succeeds_atPath_iff, succeeds_pure_iff]
  constructor
  · rintro ⟨content, _, looked, rfl, rfl⟩
    obtain ⟨read, rfl⟩ := Prod.mk.inj looked
    exact ⟨content, read, rfl, rfl⟩
  · rintro ⟨content, read, rfl, rfl⟩
    exact ⟨content, _, Prod.ext read rfl, rfl, rfl⟩

theorem FileExpansion.errors_of_isEmpty {expansion : FileExpansion}
    (empty : expansion.isEmpty = true) : expansion.errors = [] := by
  rw [errors, List.isEmpty_iff.mp empty]
  rfl

theorem succeeds_renderSource_iff {result : Option Text × Bool} :
    (renderSource settings path).Succeeds before result after ↔
      ∃ content, before.workspace.readText path = .ok content ∧
        settings.generatedFor path content = result ∧
        after = before.told
          (FileExpansion.ofSource ⟨path.text, content⟩ settings.expansion).errors := by
  have rendered (content : Text) (middle : HostState) :
      Action.Succeeds (if (FileExpansion.ofSource ⟨path.text, content⟩ settings.expansion).isEmpty = true
        then pure (none, true)
        else do
          complainAll (FileExpansion.ofSource ⟨path.text, content⟩ settings.expansion).errors
          pure ((FileExpansion.ofSource ⟨path.text, content⟩ settings.expansion).render content
              settings.rendering,
            !(FileExpansion.ofSource ⟨path.text, content⟩ settings.expansion).hasErrors))
        middle result after ↔
        settings.generatedFor path content = result ∧
          after = middle.told
            (FileExpansion.ofSource ⟨path.text, content⟩ settings.expansion).errors := by
    unfold Settings.generatedFor
    simp only
    split
    · rename_i empty
      rw [succeeds_pure_iff, FileExpansion.errors_of_isEmpty empty, HostState.told, List.map_nil,
        List.append_nil, eq_comm (a := middle)]
    · rw [succeeds_bind_iff]
      simp only [succeeds_complainAll_iff, succeeds_pure_iff]
      constructor
      · rintro ⟨_, _, rfl, rfl, rfl⟩
        exact ⟨rfl, rfl⟩
      · rintro ⟨rfl, rfl⟩
        exact ⟨(), _, rfl, rfl, rfl⟩
  simp only [renderSource, succeeds_bind_iff, succeeds_readSource_iff]
  constructor
  · rintro ⟨_, _, ⟨content, read, rfl, rfl⟩, found⟩
    exact ⟨content, read, (rendered content _).mp found⟩
  · rintro ⟨content, read, found⟩
    exact ⟨_, _, ⟨content, read, rfl, rfl⟩, (rendered content _).mpr found⟩

theorem effect_of_makeDirectories {done : Unit}
    (made : (Action.atPath path (Host.makeDirectories path)).Succeeds before done after) :
    after.workspace = (before.workspace.makeDirectories path).1 := by
  have same := Prod.mk.inj (succeeds_atPath_iff.mp made)
  rw [← same.2]
  rfl

theorem effect_of_writeText {done : Unit}
    (wrote : (Action.atPath path (Host.writeText path content)).Succeeds before done after) :
    before.workspace.Delivered path content after.workspace := by
  have wrote : HostState.write path content before = (.ok done, after) :=
    succeeds_atPath_iff.mp wrote
  unfold HostState.write at wrote
  split at wrote
  · rename_i written success
    obtain ⟨-, rfl⟩ := Prod.mk.inj wrote
    exact Workspace.delivered_of_write success
  · cases (Prod.mk.inj wrote).1

theorem effect_of_writeOutput {done : Unit}
    (wrote : (writeOutput path content).Succeeds before done after) :
    before.workspace.Delivered path content after.workspace := by
  unfold writeOutput at wrote
  simp only at wrote
  split at wrote
  · obtain ⟨_, middle, made, wrote⟩ := succeeds_bind_iff.mp wrote
    have delivered := effect_of_writeText wrote
    rw [effect_of_makeDirectories made] at delivered
    exact delivered.after_makeDirectories
  · exact effect_of_writeText wrote

/-- What `generate` does for one source: it puts what the source is rendered to under the path
of the output. -/
theorem effect_of_generateOne
    (done : (generateOne settings coloured planned).Succeeds before well after) :
    ∃ content, before.workspace.readText planned.source = .ok content ∧
      (settings.generatedFor planned.source content).2 = well ∧
      ((settings.generatedFor planned.source content).1 = none ∧
          after.workspace = before.workspace ∨
        ∃ text, (settings.generatedFor planned.source content).1 = some text ∧
          before.workspace.Delivered planned.output text after.workspace) := by
  obtain ⟨⟨rendering, good⟩, middle, rendered, done⟩ := succeeds_bind_iff.mp done
  obtain ⟨content, read, outcome, rfl⟩ := succeeds_renderSource_iff.mp rendered
  refine ⟨content, read, ?_⟩
  rw [outcome]
  cases rendering with
  | none =>
      obtain ⟨rfl, rfl⟩ := succeeds_pure_iff.mp done
      exact ⟨rfl, .inl ⟨rfl, rfl⟩⟩
  | some text =>
      obtain ⟨_, _, wrote, done⟩ := succeeds_bind_iff.mp done
      obtain ⟨_, _, printed, done⟩ := succeeds_bind_iff.mp done
      obtain rfl := succeeds_print_iff.mp printed
      obtain ⟨rfl, rfl⟩ := succeeds_pure_iff.mp done
      have delivered := effect_of_writeOutput wrote
      exact ⟨rfl, .inr ⟨text, rfl, delivered⟩⟩

/-- A source is without faults, and its generated file holds what it has to. -/
def Workspace.IsFresh (settings : Settings) (workspace : Workspace) (planned : PlannedOutput) :
    Prop :=
  ∃ content, workspace.readText planned.source = .ok content ∧
    (settings.generatedFor planned.source content).2 = true ∧
    ∀ text, (settings.generatedFor planned.source content).1 = some text →
      workspace.readText planned.output = .ok text

theorem succeeds_checkOutput (present : before.workspace.readText path = .ok content)
    (coloured : Bool) :
    ∃ after, (checkOutput coloured path content).Succeeds before true after ∧
      after.workspace = before.workspace := by
  refine ⟨{ before with printed := before.printed ++ OutputState.fresh.listing coloured path },
    ?_, rfl⟩
  refine succeeds_bind_iff.mpr ⟨_, before, succeeds_readText_iff.mpr ⟨present, rfl⟩, ?_⟩
  simp only [if_true]
  exact succeeds_bind_iff.mpr
    ⟨(), _, succeeds_print_iff.mpr rfl, succeeds_pure_iff.mpr ⟨rfl, rfl⟩⟩

theorem succeeds_checkOne_of_isFresh (fresh : before.workspace.IsFresh settings planned)
    (coloured : Bool) :
    ∃ after, (checkOne settings coloured planned).Succeeds before true after ∧
      after.workspace = before.workspace := by
  obtain ⟨content, read, good, holds⟩ := fresh
  obtain ⟨told, rendered, same⟩ : ∃ told, (renderSource settings planned.source).Succeeds before
      (settings.generatedFor planned.source content) told ∧ told.workspace = before.workspace :=
    ⟨_, succeeds_renderSource_iff.mpr ⟨content, read, rfl, rfl⟩, rfl⟩
  cases rendering : (settings.generatedFor planned.source content).1 with
  | none =>
      refine ⟨told, succeeds_bind_iff.mpr ⟨_, _, rendered, ?_⟩, same⟩
      simp only [rendering]
      exact succeeds_pure_iff.mpr ⟨good, rfl⟩
  | some text =>
      obtain ⟨after, compared, still⟩ :=
        succeeds_checkOutput (same ▸ holds text rendering) coloured
      refine ⟨after, succeeds_bind_iff.mpr ⟨_, _, rendered, ?_⟩, still.trans same⟩
      simp only [rendering]
      refine succeeds_bind_iff.mpr ⟨true, after, compared, succeeds_pure_iff.mpr ⟨?_, rfl⟩⟩
      rw [good]
      rfl

end Files

/-! ## All items -/

section Items

variable {Item : Type} {step : Item → Action (StateM HostState) Bool} {before after : HostState}

theorem succeeds_allWell_cons_iff {item : Item} {rest : List Item} :
    (Action.allWell step (item :: rest)).Succeeds before true after ↔
      ∃ middle, (step item).Succeeds before true middle ∧
        (Action.allWell step rest).Succeeds middle true after := by
  simp only [Action.allWell, succeeds_bind_iff, succeeds_pure_iff, Bool.and_eq_true]
  constructor
  · rintro ⟨here, middle, first, behind, _, others, ⟨rfl, rfl⟩, rfl⟩
    exact ⟨middle, first, others⟩
  · rintro ⟨middle, first, others⟩
    exact ⟨true, middle, first, true, after, others, ⟨rfl, rfl⟩, rfl⟩

theorem succeeds_allWell_of_quiet {items : List Item} {workspace : Workspace}
    (quiet : ∀ item ∈ items, ∀ state : HostState, state.workspace = workspace →
      ∃ next, (step item).Succeeds state true next ∧ next.workspace = workspace)
    (same : before.workspace = workspace) :
    ∃ after, (Action.allWell step items).Succeeds before true after ∧
      after.workspace = workspace := by
  induction items generalizing before with
  | nil => exact ⟨before, succeeds_pure_iff.mpr ⟨rfl, rfl⟩, same⟩
  | cons item rest inductionHypothesis =>
      obtain ⟨middle, first, still⟩ := quiet item List.mem_cons_self before same
      obtain ⟨after, others, unchanged⟩ := inductionHypothesis
        (fun other member => quiet other (List.mem_cons_of_mem _ member)) still
      exact ⟨after, succeeds_allWell_cons_iff.mpr ⟨middle, first, others⟩, unchanged⟩

theorem allWell_induction (Holds : List Item → HostState → Prop)
    (keeps : ∀ item rest before middle, Holds (item :: rest) before →
      (step item).Succeeds before true middle → Holds rest middle)
    {items : List Item} (start : Holds items before)
    (done : (Action.allWell step items).Succeeds before true after) : Holds [] after := by
  induction items generalizing before with
  | nil =>
      obtain ⟨-, rfl⟩ := succeeds_pure_iff.mp done
      exact start
  | cons item rest inductionHypothesis =>
      obtain ⟨middle, first, others⟩ := succeeds_allWell_cons_iff.mp done
      exact inductionHypothesis (keeps item rest before middle start first) others

end Items

end StyleMacros
