import StyleMacros.Plan
import StyleMacros.Proofs.Files.Components

/-!
# What a plan writes over

A plan pairs each source with its output. The outputs are compared with each other and not with
the sources, so a plan can put an output over a source. It does so exactly where a source has
the name of another one's output and lies in the directory of that output. What is found in a
directory has no such name; only what is named itself can have it.
-/

set_option autoImplicit false

namespace StyleMacros

variable {settings : Settings} {outDir : Option Path} {plan : List PlannedOutput}
  {planned : PlannedOutput} {source first second : Path} {sources : List Path}

/-! ## Plans -/

theorem planBehind_eq_map {earlier : List PlannedOutput}
    (success : planBehind settings outDir earlier sources = .ok plan) :
    plan = sources.map fun source => ⟨source, settings.outputPath source outDir⟩ := by
  induction sources generalizing earlier plan with
  | nil =>
      cases success
      rfl
  | cons source rest inductionHypothesis =>
      rw [planBehind] at success
      split at success
      · cases success
      · cases others : planBehind settings outDir
            (earlier ++ [⟨source, settings.outputPath source outDir⟩]) rest with
        | error clash =>
            rw [others] at success
            cases success
        | ok behind =>
            rw [others] at success
            cases success
            rw [inductionHypothesis others, List.map_cons]

theorem mem_planBehind {earlier : List PlannedOutput}
    (success : planBehind settings outDir earlier sources = .ok plan) (member : planned ∈ plan) :
    planned.source ∈ sources ∧ planned.output = settings.outputPath planned.source outDir := by
  rw [planBehind_eq_map success] at member
  obtain ⟨source, present, rfl⟩ := List.mem_map.mp member
  exact ⟨present, rfl⟩

/-! ## Names of outputs -/

namespace Path

variable {path : Path} {name stem : Text}

theorem slash_notMem_fileName (found : path.fileName? = some name) : '/' ∉ name := by
  have member := List.mem_of_getLast? (fileName?_eq_some_iff.mp found).1
  exact Text.separator_notMem_of_mem_splitOn (List.mem_filter.mp member).1

theorem mem_of_mem_splitName {char : Char} (member : char ∈ (splitName name).1) : char ∈ name := by
  unfold splitName at member
  split at member
  · rename_i last first others pieces
    have parts : Text.splitOn '.' name = (first :: others).reverse ++ [last] := by
      rw [← List.reverse_reverse (Text.splitOn '.' name), pieces, List.reverse_cons]
    have whole : name = Text.join ['.'] (first :: others).reverse ++ ('.' :: last) := by
      rw [← Text.join_splitOn '.' name, parts, Text.join_concat _ _ (by simp)]
      rfl
    simp only at member
    split at member
    · exact member
    · rw [whole]
      exact List.mem_append_left _ member
  · exact member

theorem slash_notMem_fileStem (path : Path) : '/' ∉ path.fileStem?.getD [] := by
  rw [fileStem?]
  cases found : path.fileName? with
  | none => exact List.not_mem_nil
  | some name => exact fun inside => slash_notMem_fileName found (mem_of_mem_splitName inside)

end Path

namespace Settings

theorem outputSuffix_ne_nil (accepted : settings.fault? = none) : settings.outputSuffix ≠ [] := by
  intro empty
  rw [fault?, if_pos empty] at accepted
  repeat' split at accepted
  all_goals cases accepted

theorem fileExtension_ne_nil (accepted : settings.fault? = none) : settings.fileExtension ≠ [] := by
  intro empty
  rw [fault?, empty] at accepted
  repeat' split at accepted
  all_goals simp_all

/-- The settings make the name of a file out of each stem. -/
structure MakeNames (settings : Settings) : Prop where
  accepted : settings.fault? = none
  suffix : '/' ∉ settings.outputSuffix
  extension : '/' ∉ settings.fileExtension

def outputNameOf (settings : Settings) (source : Path) : Text :=
  settings.outputName (source.fileStem?.getD [])

theorem MakeNames.isName_outputNameOf (names : settings.MakeNames) (source : Path) :
    Path.IsName (settings.outputNameOf source) := by
  have suffixed := List.length_pos_iff.mpr (outputSuffix_ne_nil names.accepted)
  have extended := List.length_pos_iff.mpr (fileExtension_ne_nil names.accepted)
  have long : 2 < (settings.outputNameOf source).length := by
    simp only [outputNameOf, outputName, List.length_append, List.length_cons]
    omega
  refine Path.isName_of_length long ?_
  simp [outputNameOf, outputName, source.slash_notMem_fileStem, names.suffix, names.extension]

theorem outputPath_eq_join (named : source.fileName?.isSome) :
    settings.outputPath source outDir =
      (outDir.getD source.parent).join (settings.outputNameOf source) := by
  unfold outputPath
  cases outDir with
  | none => exact if_pos named
  | some dir => rfl

/-! ## Outputs over sources -/

/-- A file has the name of a source's output and lies in the directory of that output. -/
def GeneratesOver (settings : Settings) (outDir : Option Path) (source other : Path) : Prop :=
  other.fileName? = some (settings.outputNameOf source) ∧
    other.parent.same (outDir.getD source.parent) = true

theorem MakeNames.same_outputPath_iff (names : settings.MakeNames)
    (named : first.fileName?.isSome) (other : second.fileName?.isSome) :
    (settings.outputPath first outDir).same second = true ↔
      settings.GeneratesOver outDir first second := by
  obtain ⟨name, found⟩ := Option.isSome_iff_exists.mp other
  rw [GeneratesOver, Path.same, Path.same, decide_eq_true_iff, decide_eq_true_iff,
    outputPath_eq_join named, Path.components_join (names.isName_outputNameOf first),
    Path.components_eq_parent found, found]
  constructor
  · intro same
    obtain ⟨holder, last⟩ := List.append_inj' same rfl
    cases last
    exact ⟨rfl, holder.symm⟩
  · rintro ⟨last, holder⟩
    rw [Option.some_inj.mp last, holder]

/-- What is found as a source in a directory does not have the name of an output. -/
theorem MakeNames.not_generatesOver_of_isSource (names : settings.MakeNames)
    (found : settings.isSource second) : ¬ settings.GeneratesOver outDir first second := by
  rintro ⟨named, -⟩
  have unlike := isSourceName_lastName_outputPath (outputSuffix_ne_nil names.accepted) names.suffix
    first (some ⟨[]⟩)
  change settings.isSourceName (Path.join ⟨[]⟩ (settings.outputNameOf first)).lastName = false
    at unlike
  rw [Path.lastName_join (names.isName_outputNameOf first)] at unlike
  rw [isSource_eq named, unlike] at found
  cases found

end Settings

/-- A plan puts no output over a source if and only if no source has the name of an output and
lies in its directory; it never puts one over a source that is found in a directory. -/
theorem plan_spares_sources_iff (names : settings.MakeNames)
    (named : ∀ source ∈ sources, source.fileName?.isSome)
    (success : planOutputs settings outDir sources = .ok plan) :
    ((∀ planned ∈ plan, ∀ source ∈ sources, planned.output.same source = false) ↔
      ∀ first ∈ sources, ∀ second ∈ sources, ¬ settings.GeneratesOver outDir first second) ∧
    ∀ planned ∈ plan, ∀ source ∈ sources, settings.isSource source →
      planned.output.same source = false := by
  have spares {planned : PlannedOutput} (member : planned ∈ plan) {source : Path}
      (other : source ∈ sources) (clear : ¬ settings.GeneratesOver outDir planned.source source) :
      planned.output.same source = false := by
    obtain ⟨present, output⟩ := mem_planBehind success member
    rw [output, Bool.eq_false_iff]
    exact fun same =>
      clear ((names.same_outputPath_iff (named _ present) (named _ other)).mp same)
  constructor
  · constructor
    · intro spared first member second other generates
      have entry : (⟨first, settings.outputPath first outDir⟩ : PlannedOutput) ∈ plan := by
        rw [planBehind_eq_map success]
        exact List.mem_map.mpr ⟨first, member, rfl⟩
      have apart := spared _ entry second other
      rw [(names.same_outputPath_iff (named _ member) (named _ other)).mpr generates] at apart
      cases apart
    · intro clear planned member source other
      exact spares member other (clear _ (mem_planBehind success member).1 source other)
  · intro planned member source other found
    exact spares member other (names.not_generatesOver_of_isSource found)

theorem plan_spares_output_elsewhere :
    Settings.MakeNames {} ∧ ∃ plan,
      planOutputs {} none [⟨"ui/Card.swift"⟩, ⟨"gen/Card+Generated.swift"⟩] = .ok plan ∧
        ∀ planned ∈ plan, ∀ source ∈ [(⟨"ui/Card.swift"⟩ : Path), ⟨"gen/Card+Generated.swift"⟩],
          planned.output.same source = false := by
  have names : Settings.MakeNames {} := ⟨by decide +kernel, by decide +kernel, by decide +kernel⟩
  have apart : ∀ first ∈ [(⟨"ui/Card.swift"⟩ : Path), ⟨"gen/Card+Generated.swift"⟩],
      ∀ second ∈ [(⟨"ui/Card.swift"⟩ : Path), ⟨"gen/Card+Generated.swift"⟩],
        ¬ Settings.GeneratesOver {} none first second := by
    unfold Settings.GeneratesOver
    decide +kernel
  exact ⟨names, _, rfl, (plan_spares_sources_iff names (by decide +kernel) rfl).1.mpr apart⟩

/-- A source and its old output, named side by side: the output is planned over the second. -/
theorem plan_puts_output_over_source :
    Settings.fault? {} = none ∧ ∃ plan,
      planOutputs {} none [⟨"Card.swift"⟩, ⟨"Card+Generated.swift"⟩] = .ok plan ∧
        (∀ source ∈ [(⟨"Card.swift"⟩ : Path), ⟨"Card+Generated.swift"⟩],
          source.fileName?.isSome) ∧
        ∃ planned ∈ plan, ∃ source ∈ [(⟨"Card.swift"⟩ : Path), ⟨"Card+Generated.swift"⟩],
          planned.output.same source = true :=
  ⟨by decide +kernel, _, rfl, by decide +kernel, by decide +kernel⟩

end StyleMacros
