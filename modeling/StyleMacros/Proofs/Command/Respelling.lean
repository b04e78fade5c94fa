import StyleMacros.Proofs.Command.Steps
import StyleMacros.Proofs.Files.Collisions

/-!
# Generating under other spellings

How the paths of a plan are spelled is seen in what is printed and complained about, and nowhere
else. So plans for one list of files, spelled in two ways, are carried out with the same result and
leave the same files.
-/

set_option autoImplicit false

namespace StyleMacros

/-! ## Outputs -/

/-- Paths that differ in the spelling of a directory at most. -/
def Path.Respelled (left right : Path) : Prop :=
  ∃ dir other name, left = Path.join dir name ∧ right = Path.join other name ∧
    dir.components = other.components ∧ name.head? ≠ some '/'

namespace Path.Respelled

variable {left right : Path}

theorem components (respelled : left.Respelled right) : left.components = right.components := by
  obtain ⟨dir, other, name, rfl, rfl, same, relative⟩ := respelled
  exact join_components_congr same relative

theorem write (respelled : left.Respelled right) (workspace : Workspace) (content : FileContent) :
    workspace.write left content = workspace.write right content := by
  obtain ⟨dir, other, name, rfl, rfl, same, relative⟩ := respelled
  exact Workspace.write_join_congr same relative content

end Path.Respelled

theorem Settings.respelled_outputPath (settings : Settings) (outDir : Option Path)
    {left right : Path} (same : left.components = right.components)
    (named : left.fileName?.isSome) :
    (settings.outputPath left outDir).Respelled (settings.outputPath right outDir) := by
  have names := Path.fileName?_congr same
  have stems : settings.outputNameOf left = settings.outputNameOf right := by
    rw [outputNameOf, outputNameOf, Path.fileStem?, Path.fileStem?, names]
  have relative : (settings.outputNameOf right).head? ≠ some '/' := by
    have nonempty : right.stem ≠ [] := Path.stem_ne_nil (names ▸ named)
    have begins : (settings.outputNameOf right).head? = right.stem.head? := by
      rw [outputNameOf, ← Path.stem, outputName, List.append_assoc,
        List.head?_append_of_ne_nil _ nonempty]
    rw [begins]
    exact Path.head?_ne_of_flat right.slash_notMem_fileStem
  refine ⟨outDir.getD left.parent, outDir.getD right.parent, settings.outputNameOf right, ?_,
    outputPath_eq_join (names ▸ named), ?_, relative⟩
  · rw [outputPath_eq_join named, stems]
  · cases outDir with
    | none => exact Path.parent_components_congr same
    | some dir => rfl

/-! ## Actions that end alike -/

namespace Action

variable {First Second Result Other : Type}

/-- Both actions end with a result, and the results are related, or both with a diagnostic. They
leave one workspace, whatever was printed and complained about. -/
inductive EndAlike (related : First → Second → Prop) :
    Except Diagnostic First × HostState → Except Diagnostic Second × HostState → Prop where
  | ok {first : First} {second : Second} {after other : HostState} (results : related first second)
      (same : after.workspace = other.workspace) :
      EndAlike related (.ok first, after) (.ok second, other)
  | error {first second : Diagnostic} {after other : HostState}
      (same : after.workspace = other.workspace) :
      EndAlike related (.error first, after) (.error second, other)

/-- Two actions end alike wherever they start in a given workspace. -/
def AlikeIn (workspace : Workspace) (related : First → Second → Prop)
    (first : Action (StateM HostState) First) (second : Action (StateM HostState) Second) : Prop :=
  ∀ before other : HostState, before.workspace = workspace → other.workspace = workspace →
    EndAlike related (first.ending before) (second.ending other)

variable {workspace : Workspace} {related : First → Second → Prop}
  {equated : Result → Other → Prop} {first : Action (StateM HostState) First}
  {second : Action (StateM HostState) Second}

theorem alikeIn_pure {value : First} {other : Second} (results : related value other) :
    AlikeIn workspace related (pure value) (pure other) :=
  fun _ _ same otherSame => .ok results (same.trans otherSame.symm)

theorem AlikeIn.bind {next : First → Action (StateM HostState) Result}
    {otherNext : Second → Action (StateM HostState) Other}
    (heads : AlikeIn workspace related first second)
    (tails : ∀ value other before after, before.workspace = workspace →
      first.Succeeds before value after → related value other →
        AlikeIn after.workspace equated (next value) (otherNext other)) :
    AlikeIn workspace equated (first >>= next) (second >>= otherNext) := by
  intro before other same otherSame
  have ends := heads before other same otherSame
  rw [ending_bind, ending_bind]
  cases outcome : first.ending before with
  | mk result after =>
      cases otherOutcome : second.ending other with
      | mk otherResult otherAfter =>
          rw [outcome, otherOutcome] at ends
          cases ends with
          | ok results left =>
              exact tails _ _ before after same outcome results after otherAfter rfl left.symm
          | error left => exact .error left

/-- Steps that cannot fail and leave the workspace alone. -/
theorem alikeIn_of_telling {tell otherTell : Action (StateM HostState) Unit}
    (told : ∀ before : HostState, ∃ after, tell.Succeeds before () after ∧
      after.workspace = before.workspace)
    (otherTold : ∀ before : HostState, ∃ after, otherTell.Succeeds before () after ∧
      after.workspace = before.workspace) :
    AlikeIn workspace (· = ·) tell otherTell := by
  intro before other same otherSame
  obtain ⟨after, done, left⟩ := told before
  obtain ⟨otherAfter, otherDone, otherLeft⟩ := otherTold other
  rw [done, otherDone]
  exact .ok rfl (by rw [left, otherLeft, same, otherSame])

theorem alikeIn_print (text other : Text) :
    AlikeIn workspace (· = ·) (Host.print text) (Host.print other) :=
  alikeIn_of_telling (fun _ => ⟨_, succeeds_print_iff.mpr rfl, rfl⟩)
    fun _ => ⟨_, succeeds_print_iff.mpr rfl, rfl⟩

theorem alikeIn_complainAll (diagnostics others : List Diagnostic) :
    AlikeIn workspace (· = ·) (complainAll diagnostics) (complainAll others) :=
  alikeIn_of_telling (fun _ => ⟨_, succeeds_complainAll_iff.mpr rfl, rfl⟩)
    fun _ => ⟨_, succeeds_complainAll_iff.mpr rfl, rfl⟩

theorem alikeIn_atPath {path otherPath : Path}
    {step otherStep : StateM HostState (Except FileFault Result)}
    (alike : ∀ before other : HostState, before.workspace = workspace →
      other.workspace = workspace → (step before).1 = (otherStep other).1 ∧
        (step before).2.workspace = (otherStep other).2.workspace) :
    AlikeIn workspace (· = ·) (atPath path step) (atPath otherPath otherStep) := by
  intro before other same otherSame
  obtain ⟨outcomes, left⟩ := alike before other same otherSame
  change EndAlike _ ((step before).1.mapError _, (step before).2)
    ((otherStep other).1.mapError _, (otherStep other).2)
  rw [outcomes]
  cases (otherStep other).1 with
  | error fault => exact .error left
  | ok value => exact .ok rfl left

end Action

open StyleMacros.Action

/-! ## Expansions -/

def Diagnostic.inSource (source : SourceText) (diagnostic : Diagnostic) : Diagnostic :=
  { diagnostic with source := source }

def SiteExpansion.inSource (source : SourceText) (site : SiteExpansion) : SiteExpansion :=
  { site with errors := site.errors.map (Diagnostic.inSource source) }

theorem SiteExpansion.outcomes_inSource (annotated : AnnotatedDeclaration)
    (settings : ExpansionSettings) (source other : SourceText) :
    outcomes annotated settings other =
      ((outcomes annotated settings source).1,
        (outcomes annotated settings source).2.map (Diagnostic.inSource other)) := by
  unfold outcomes
  induction annotated.invocations with
  | nil => rfl
  | cons invocation rest inductionHypothesis =>
      rw [List.foldr_cons, List.foldr_cons, inductionHypothesis, Invocation.expand,
        Invocation.expand]
      cases invocation.use annotated.declaration settings.targets <;> rfl

theorem Site.expand_inSource (site : Site) (settings : ExpansionSettings)
    (source other : SourceText) :
    site.expand settings other = (site.expand settings source).inSource other := by
  unfold Site.expand
  cases site.annotated with
  | error fault => rfl
  | ok annotated =>
      simp only
      rw [SiteExpansion.outcomes_inSource annotated settings source other]
      rfl

theorem FileExpansion.ofSource_inSource (settings : ExpansionSettings) (name other content : Text) :
    ofSource ⟨other, content⟩ settings =
      ⟨(ofSource ⟨name, content⟩ settings).sites.map (SiteExpansion.inSource ⟨other, content⟩)⟩ := by
  unfold ofSource
  rw [List.map_map]
  congr 1
  exact List.map_congr_left fun site _ => site.expand_inSource settings _ _

/-- The name of a source does not matter to what is rendered. -/
theorem FileExpansion.rendered_inSource (settings : ExpansionSettings) (options : RenderOptions)
    (name other content : Text) :
    (ofSource ⟨other, content⟩ settings).isEmpty = (ofSource ⟨name, content⟩ settings).isEmpty ∧
      (ofSource ⟨other, content⟩ settings).hasErrors =
        (ofSource ⟨name, content⟩ settings).hasErrors ∧
      (ofSource ⟨other, content⟩ settings).render content options =
        (ofSource ⟨name, content⟩ settings).render content options := by
  rw [ofSource_inSource settings name other content]
  generalize ofSource ⟨name, content⟩ settings = expansion
  have empty : (FileExpansion.mk (expansion.sites.map
      (SiteExpansion.inSource ⟨other, content⟩))).isEmpty = expansion.isEmpty := by
    simp [isEmpty]
  have faulty : (FileExpansion.mk (expansion.sites.map
      (SiteExpansion.inSource ⟨other, content⟩))).hasErrors = expansion.hasErrors := by
    simp [hasErrors, List.any_map, Function.comp_def, SiteExpansion.isOk, SiteExpansion.inSource]
  have edits : (FileExpansion.mk (expansion.sites.map
      (SiteExpansion.inSource ⟨other, content⟩))).edits content options.unit =
        expansion.edits content options.unit := by
    rw [FileExpansion.edits, FileExpansion.edits, List.flatMap_map]
    rfl
  refine ⟨empty, faulty, ?_⟩
  rw [render, render, faulty, edits]

/-! ## Steps of `generate` -/

section Steps

variable {settings : Settings} {workspace : Workspace} {left right : Path} {content : Text}

theorem alikeIn_readSource (read : workspace.readText left = workspace.readText right) :
    AlikeIn workspace (fun source other : SourceText => source.content = other.content)
      (readSource left) (readSource right) := by
  refine AlikeIn.bind (alikeIn_atPath fun before other same otherSame => ?_)
    fun value other _ _ _ _ same => alikeIn_pure same
  change before.workspace.readText left = other.workspace.readText right ∧
    before.workspace = other.workspace
  rw [same, otherSame]
  exact ⟨read, rfl⟩

theorem alikeIn_renderSource (read : workspace.readText left = workspace.readText right) :
    AlikeIn workspace (· = ·) (renderSource settings left) (renderSource settings right) := by
  refine AlikeIn.bind (alikeIn_readSource read) ?_
  rintro ⟨name, content⟩ ⟨other, -⟩ _ _ _ _ rfl
  obtain ⟨empty, faulty, rendered⟩ :=
    FileExpansion.rendered_inSource settings.expansion settings.rendering name other content
  simp only [empty, faulty, rendered]
  split
  · exact alikeIn_pure rfl
  · exact AlikeIn.bind (alikeIn_complainAll _ _) fun _ _ _ _ _ _ _ => alikeIn_pure rfl

theorem alikeIn_writeOutput (respelled : left.Respelled right) (content : Text) :
    AlikeIn workspace (· = ·) (writeOutput left content) (writeOutput right content) := by
  have parents := Path.parent_components_congr respelled.components
  have wrote (workspace : Workspace) : AlikeIn workspace (· = ·)
      (atPath left (Host.writeText left content)) (atPath right (Host.writeText right content)) := by
    refine alikeIn_atPath fun before other same otherSame => ?_
    change (HostState.write left content before).1 = (HostState.write right content other).1 ∧
      (HostState.write left content before).2.workspace =
        (HostState.write right content other).2.workspace
    unfold HostState.write
    rw [same, otherSame, respelled.write]
    split
    · exact ⟨rfl, rfl⟩
    · exact ⟨rfl, same.trans otherSame.symm⟩
  unfold writeOutput
  dsimp only
  by_cases empty : left.parent.text = []
  · have other := (Path.text_eq_nil_congr parents).mp empty
    rw [if_neg (not_not_intro empty), if_neg (not_not_intro other)]
    exact wrote workspace
  · have other := (Path.text_eq_nil_congr parents).not.mp empty
    rw [if_pos empty, if_pos other]
    refine AlikeIn.bind (alikeIn_atPath fun before other same otherSame => ?_)
      fun _ _ _ after _ _ _ => wrote after.workspace
    change (before.workspace.makeDirectories left.parent).2 =
        (other.workspace.makeDirectories right.parent).2 ∧
      (before.workspace.makeDirectories left.parent).1 =
        (other.workspace.makeDirectories right.parent).1
    rw [same, otherSame, Workspace.makeDirectories_congr parents]
    exact ⟨rfl, rfl⟩

structure PlannedOutput.Respelled (workspace : Workspace) (planned other : PlannedOutput) :
    Prop where
  source : planned.source.components = other.source.components
  file : workspace.isFile planned.source = true
  otherFile : workspace.isFile other.source = true
  output : planned.output.Respelled other.output

theorem alikeIn_generateOne {planned other : PlannedOutput} {coloured otherColoured : Bool}
    (respelled : planned.Respelled workspace other) :
    AlikeIn workspace (· = ·) (generateOne settings coloured planned)
      (generateOne settings otherColoured other) := by
  refine AlikeIn.bind (alikeIn_renderSource (Workspace.readText_congr respelled.source
    respelled.file respelled.otherFile)) ?_
  rintro ⟨rendered, well⟩ _ _ _ _ _ rfl
  cases rendered with
  | none => exact alikeIn_pure rfl
  | some content =>
      refine AlikeIn.bind (alikeIn_writeOutput respelled.output content) fun _ _ _ _ _ _ _ => ?_
      exact AlikeIn.bind (alikeIn_print _ _) fun _ _ _ _ _ _ _ => alikeIn_pure rfl

theorem grows_of_generateOne {planned : PlannedOutput} {coloured well : Bool}
    {before after : HostState}
    (done : (generateOne settings coloured planned).Succeeds before well after) :
    before.workspace.Grows (fun _ => True) after.workspace := by
  obtain ⟨content, -, -, ⟨-, same⟩ | ⟨text, -, delivered⟩⟩ := effect_of_generateOne done
  · rw [same]
    exact .refl _
  · exact delivered.grows.mono fun _ _ => trivial

theorem PlannedOutput.Respelled.grows {planned other : PlannedOutput} {now : Workspace}
    (respelled : planned.Respelled workspace other)
    (grown : workspace.Grows (fun _ => True) now) : planned.Respelled now other :=
  { respelled with
    file := grown.isFile respelled.file
    otherFile := grown.isFile respelled.otherFile }

/-- Plans that differ in the spelling are carried out alike, output after output. -/
theorem alikeIn_generateAll {plan otherPlan : List PlannedOutput} {coloured otherColoured : Bool}
    (respelled : List.Forall₂ (PlannedOutput.Respelled workspace) plan otherPlan) :
    AlikeIn workspace (· = ·) (allWell (generateOne settings coloured) plan)
      (allWell (generateOne settings otherColoured) otherPlan) := by
  suffices carried : ∀ now : Workspace, workspace.Grows (fun _ => True) now →
      AlikeIn now (· = ·) (allWell (generateOne settings coloured) plan)
        (allWell (generateOne settings otherColoured) otherPlan) from
    carried workspace (.refl _)
  -- the plans are those of the beginning, while the files get more
  induction respelled with
  | nil => exact fun _ _ => alikeIn_pure rfl
  | cons first others inductionHypothesis =>
      intro now grown
      refine AlikeIn.bind (alikeIn_generateOne (first.grows grown)) ?_
      rintro here _ before after rfl done rfl
      refine AlikeIn.bind (inductionHypothesis _ (grown.trans (grows_of_generateOne done))) ?_
      rintro behind _ _ _ _ _ rfl
      exact alikeIn_pure rfl

end Steps

end StyleMacros
