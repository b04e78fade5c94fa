import StyleMacros.Proofs.Files.Collisions

/-!
# Recognising generated files

A generated file is recognised by the stem of its name. What the settings put behind the stem of a
source can be read in another way than it was written: a slash in the suffix puts it into a
directory's name, a dot in the extension moves the end of the stem, and what counts behind a slash
in the extension becomes the name of the file. The outputs of all sources are recognised and differ
from their sources exactly if the settings do none of this to harm.
-/

set_option autoImplicit false

namespace StyleMacros

namespace Settings

variable {settings : Settings} {source : Path} {outDir : Option Path}

/-- The outputs that the settings name end in front of their last dot with the suffix. -/
structure MarksOutputs (settings : Settings) : Prop where
  flat : '/' ∉ settings.outputSuffix
  /-- Nothing that counts stands behind the first slash of what is put behind a stem. -/
  last : settings.endingTail = []
  kept : (Path.splitName settings.endingHead).1.endsWith settings.outputSuffix = true

instance (settings : Settings) : Decidable settings.MarksOutputs :=
  decidable_of_iff ('/' ∉ settings.outputSuffix ∧ settings.endingTail = [] ∧
      (Path.splitName settings.endingHead).1.endsWith settings.outputSuffix = true)
    ⟨fun ⟨flat, last, kept⟩ => ⟨flat, last, kept⟩, fun ⟨flat, last, kept⟩ => ⟨flat, last, kept⟩⟩

/-! ## Names of outputs -/

/-- With a suffix that is part of a name, the first slash comes behind the dot. -/
theorem endingHead_eq (flat : '/' ∉ settings.outputSuffix) :
    settings.endingHead =
      settings.outputSuffix ++ '.' :: settings.fileExtension.takeWhile (· ≠ '/') := by
  have plain : ∀ char ∈ settings.outputSuffix, decide (char ≠ '/') = true := fun char member =>
    decide_eq_true fun same => flat (same ▸ member)
  rw [endingHead, outputEnding, List.takeWhile_append_of_pos plain]
  rfl

theorem exists_splitName_append_endingHead (flat : '/' ∉ settings.outputSuffix)
    (suffixed : settings.outputSuffix ≠ []) :
    ∃ more, ∀ stem, (Path.splitName (stem ++ settings.endingHead)).1 =
      stem ++ (settings.outputSuffix ++ more) := by
  have dotted : '.' ∈ '.' :: settings.fileExtension.takeWhile (· ≠ '/') := List.mem_cons_self
  obtain ⟨more, back, split, none⟩ := Text.exists_last_separator dotted
  refine ⟨more, fun stem => ?_⟩
  have whole : stem ++ settings.endingHead =
      (stem ++ (settings.outputSuffix ++ more)) ++ '.' :: back := by
    rw [endingHead_eq flat, split]
    simp
  rw [whole, splitName_append (by simp [suffixed]) none]

theorem components_outputPath (accepted : settings.fault? = none)
    (flat : '/' ∉ settings.outputSuffix) (named : source.fileName?.isSome) :
    (settings.outputPath source outDir).components =
      (outDir.getD source.parent).components ++
        .name (source.stem ++ settings.endingHead) :: settings.endingTail := by
  have long : 2 < (source.stem ++ settings.endingHead).length := by
    have stem := List.length_pos_iff.mpr (Path.stem_ne_nil named)
    have suffix := List.length_pos_iff.mpr (outputSuffix_ne_nil accepted)
    rw [endingHead_eq flat]
    simp only [List.length_append, List.length_cons]
    omega
  have isName : Path.IsName (source.stem ++ settings.endingHead) :=
    Path.isName_of_length long (by
      simpa [Path.stem, source.slash_notMem_fileStem] using settings.slash_notMem_endingHead)
  rw [outputPath_eq_join named]
  change ((outDir.getD source.parent).join (settings.outputName source.stem)).components = _
  rw [components_outputName _ (Path.stem_ne_nil named) source.slash_notMem_fileStem,
    Path.components_join isName, List.append_assoc]
  rfl

/-! ## Recognised outputs -/

theorem isGenerated_eq {path : Path} {name : Text} (found : path.fileName? = some name) :
    settings.isGenerated path = (Path.splitName name).1.endsWith settings.outputSuffix := by
  rw [isGenerated, Path.fileStem?, found]
  rfl

theorem fileName?_outputPath (accepted : settings.fault? = none)
    (flat : '/' ∉ settings.outputSuffix) (last : settings.endingTail = [])
    (named : source.fileName?.isSome) :
    (settings.outputPath source outDir).fileName? = some (source.stem ++ settings.endingHead) := by
  rw [Path.fileName?, components_outputPath accepted flat named, last, List.getLast?_concat]

/-- What stands in front of the suffix does not matter for the way in which it ends. -/
theorem isGenerated_outputPath (accepted : settings.fault? = none)
    (flat : '/' ∉ settings.outputSuffix) (last : settings.endingTail = [])
    (named : source.fileName?.isSome) :
    settings.isGenerated (settings.outputPath source outDir) =
      (Path.splitName settings.endingHead).1.endsWith settings.outputSuffix := by
  obtain ⟨more, front⟩ := exists_splitName_append_endingHead flat (outputSuffix_ne_nil accepted)
  have alone := front []
  rw [List.nil_append, List.nil_append] at alone
  rw [isGenerated_eq (fileName?_outputPath accepted flat last named), front, alone,
    Bool.eq_iff_iff, Text.endsWith, Text.endsWith, List.isSuffixOf_iff_suffix,
    List.isSuffixOf_iff_suffix]
  have long : settings.outputSuffix.length ≤ (settings.outputSuffix ++ more).length := by simp
  exact ⟨fun ends => List.suffix_of_suffix_length_le ends (List.suffix_append _ _) long,
    fun ends => ends.trans (List.suffix_append _ _)⟩

/-- An output has a longer stem than its source. -/
theorem outputPath_apart (accepted : settings.fault? = none)
    (flat : '/' ∉ settings.outputSuffix) (last : settings.endingTail = [])
    (named : source.fileName?.isSome) :
    (settings.outputPath source outDir).same source = false := by
  obtain ⟨more, front⟩ := exists_splitName_append_endingHead flat (outputSuffix_ne_nil accepted)
  refine decide_eq_false fun same => ?_
  have name : source.fileName? = some (source.stem ++ settings.endingHead) :=
    (Path.fileName?_congr same).symm.trans (fileName?_outputPath accepted flat last named)
  have stem : source.stem = source.stem ++ (settings.outputSuffix ++ more) :=
    (Path.stem_eq name).trans (front _)
  have nothing := List.append_right_eq_self.mp stem.symm
  exact outputSuffix_ne_nil accepted (List.append_eq_nil_iff.mp nothing).1

theorem slash_notMem_outputSuffix (generated : settings.isGenerated source = true) :
    '/' ∉ settings.outputSuffix := by
  intro slash
  have flat := source.slash_notMem_fileStem
  unfold isGenerated at generated
  split at generated
  · rename_i stem found
    rw [found] at flat
    exact flat ((List.isSuffixOf_iff_suffix.mp generated).subset slash)
  · cases generated

/-- If something that counts stands behind the first slash, then an output is not recognised or
there is a source that lies where its own output goes. -/
theorem endingTail_eq_nil (accepted : settings.fault? = none)
    (flat : '/' ∉ settings.outputSuffix)
    (all : ∀ (source : Path) (outDir : Option Path), source.fileName?.isSome →
      settings.isGenerated (settings.outputPath source outDir) = true ∧
        (settings.outputPath source outDir).same source = false) :
    settings.endingTail = [] := by
  rcases List.eq_nil_or_concat settings.endingTail with empty | ⟨front, last, tail⟩
  · exact empty
  · exfalso
    rw [List.concat_eq_append] at tail
    have final {source : Path} {outDir : Option Path} (named : source.fileName?.isSome) :
        (settings.outputPath source outDir).components.getLast? = some last := by
      rw [components_outputPath accepted flat named, tail, ← List.cons_append, ← List.append_assoc,
        List.getLast?_concat]
    obtain ⟨piece, member, same⟩ :=
      List.mem_map.mp (show last ∈ settings.endingTail by rw [tail]; simp)
    have plain : '/' ∉ piece :=
      Text.separator_notMem_of_mem_splitOn (List.mem_filter.mp member).1
    have counts : Path.isVoid piece = false := by simpa using (List.mem_filter.mp member).2
    by_cases parent : piece = ['.', '.']
    · have unnamed : (settings.outputPath ⟨"a"⟩ none).fileName? = none := by
        rw [Path.fileName?, final (by decide), ← same, parent]
        rfl
      have generated := (all ⟨"a"⟩ none (by decide)).1
      rw [isGenerated, Path.fileStem?, unnamed] at generated
      cases generated
    · have isName : Path.IsName piece := ⟨counts, parent, plain⟩
      have alone : (Path.mk piece).lastName = piece := Text.lastPiece_of_notMem plain
      have named : (Path.mk piece).fileName? = some piece :=
        (Path.fileName?_eq_lastName (alone.symm ▸ isName)).trans (congrArg some alone)
      -- a file where the output of the source `piece` goes has the name of that source
      have found : (settings.outputPath ⟨piece⟩ (some ⟨[]⟩)).fileName? = some piece := by
        rw [Path.fileName?, final (by rw [named]; rfl), ← same, Path.componentOfPiece,
          if_neg parent]
      have own : settings.outputPath (settings.outputPath ⟨piece⟩ (some ⟨[]⟩)) (some ⟨[]⟩) =
          settings.outputPath ⟨piece⟩ (some ⟨[]⟩) := by
        change Path.join _ (settings.outputName (Path.stem _)) =
          Path.join _ (settings.outputName (Path.stem _))
        rw [Path.stem_eq found, Path.stem_eq named]
      have apart := (all (settings.outputPath ⟨piece⟩ (some ⟨[]⟩)) (some ⟨[]⟩)
        (by rw [found]; rfl)).2
      rw [own, Path.same, decide_eq_true rfl] at apart
      cases apart

end Settings

/-- With accepted settings, the output of every source is recognised as generated, is another path
than its source and is no source in a directory, if and only if the settings mark their outputs. -/
theorem outputs_recognised_iff {settings : Settings} (accepted : settings.fault? = none) :
    (∀ (source : Path) (outDir : Option Path), source.fileName?.isSome →
      settings.isGenerated (settings.outputPath source outDir) = true ∧
        (settings.outputPath source outDir).same source = false ∧
        settings.isSource (settings.outputPath source outDir) = false) ↔
      settings.MarksOutputs := by
  constructor
  · intro all
    have flat : '/' ∉ settings.outputSuffix :=
      Settings.slash_notMem_outputSuffix (all ⟨"a"⟩ none (by decide)).1
    have last : settings.endingTail = [] :=
      Settings.endingTail_eq_nil accepted flat fun source outDir named =>
        ⟨(all source outDir named).1, (all source outDir named).2.1⟩
    have generated : settings.isGenerated (settings.outputPath ⟨"a"⟩ none) =
        (Path.splitName settings.endingHead).1.endsWith settings.outputSuffix :=
      Settings.isGenerated_outputPath accepted flat last (by decide)
    exact ⟨flat, last, generated.symm.trans (all ⟨"a"⟩ none (by decide)).1⟩
  · rintro ⟨flat, last, kept⟩ source outDir named
    have generated : settings.isGenerated (settings.outputPath source outDir) = true := by
      rw [Settings.isGenerated_outputPath accepted flat last named, kept]
    refine ⟨generated, Settings.outputPath_apart accepted flat last named, ?_⟩
    rw [Settings.isSource, generated, Bool.not_true, Bool.and_false]

/-- The suffix stands twice in the names, and a slash comes last. -/
theorem outputs_recognised_with_a_repeated_suffix :
    Settings.fault? { outputSuffix := ".gen", fileExtension := "gen.swift/." } = none ∧
      ∀ (source : Path) (outDir : Option Path), source.fileName?.isSome →
        Settings.isGenerated { outputSuffix := ".gen", fileExtension := "gen.swift/." }
            (Settings.outputPath { outputSuffix := ".gen", fileExtension := "gen.swift/." }
              source outDir) = true ∧
          (Settings.outputPath { outputSuffix := ".gen", fileExtension := "gen.swift/." }
            source outDir).same source = false ∧
          Settings.isSource { outputSuffix := ".gen", fileExtension := "gen.swift/." }
            (Settings.outputPath { outputSuffix := ".gen", fileExtension := "gen.swift/." }
              source outDir) = false :=
  have accepted : Settings.fault? { outputSuffix := ".gen", fileExtension := "gen.swift/." } =
      none := by decide
  ⟨accepted, (outputs_recognised_iff accepted).mpr (by decide +kernel)⟩

/-- The suffix names a file in a directory that is named after the source. -/
theorem output_taken_for_source :
    Settings.fault? { outputSuffix := "/gen" } = none ∧
      (Path.fileName? ⟨"ui/Card.swift"⟩).isSome ∧
      Settings.outputPath { outputSuffix := "/gen" } ⟨"ui/Card.swift"⟩ none =
        ⟨"ui/Card/gen.swift"⟩ ∧
      Settings.isGenerated { outputSuffix := "/gen" } ⟨"ui/Card/gen.swift"⟩ = false ∧
      Settings.isSource { outputSuffix := "/gen" } ⟨"ui/Card/gen.swift"⟩ = true := by
  decide +kernel

end StyleMacros
