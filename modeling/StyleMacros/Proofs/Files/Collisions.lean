import StyleMacros.Proofs.Files.Plans
import StyleMacros.Proofs.Files.Spellings

/-!
# Outputs that collide

A plan fails at the first source whose output is taken, and it fails only there. Two outputs are
the same if their sources have one stem and, where the outputs lie next to them, one directory.
There is one case more: a suffix that begins with a slash makes a directory of the stem, and a
stem that is a dot names the directory of its source.
-/

set_option autoImplicit false

namespace StyleMacros

/-! ## Joined pieces -/

namespace Path

variable {path left right : Path} {piece other : Text}

theorem components_append_slash {text : Text} (nonempty : text ≠ []) (more : Text) :
    components ⟨text ++ '/' :: more⟩ =
      components ⟨text⟩ ++ ((Text.splitOn '/' more).filter (!isVoid ·)).map componentOfPiece := by
  rw [components_eq_leading, components_eq_leading, leading, leading,
    splitLead_append nonempty (.inr rfl), steps, Text.splitOn_append_separator,
    List.filter_append, List.map_append, List.append_assoc]
  rfl

theorem head?_ne_of_flat (flat : '/' ∉ piece) : piece.head? ≠ some '/' :=
  fun head => flat (List.mem_of_head? head)

theorem join_append_slash (nonempty : piece ≠ []) (flat : '/' ∉ piece) (more : Text) :
    path.join (piece ++ '/' :: more) = ⟨(path.join piece).text ++ '/' :: more⟩ := by
  have head : (piece ++ '/' :: more).head? = piece.head? := by
    obtain ⟨first, rest, rfl⟩ := List.exists_cons_of_ne_nil nonempty
    rfl
  unfold join
  rw [head, if_neg (head?_ne_of_flat flat), if_neg (head?_ne_of_flat flat)]
  split
  · simp
  · simp

theorem join_text_ne_nil (path : Path) (nonempty : piece ≠ []) : (path.join piece).text ≠ [] := by
  obtain ⟨front, same⟩ := exists_join_text path piece
  rw [same]
  exact List.append_ne_nil_of_right_ne_nil front nonempty

/-! ## Stems -/

def stem (path : Path) : Text :=
  path.fileStem?.getD []

theorem stem_eq {name : Text} (found : path.fileName? = some name) :
    path.stem = (splitName name).1 := by
  rw [stem, fileStem?, found]
  rfl

theorem splitName_fst_ne_nil {name : Text} (nonempty : name ≠ []) : (splitName name).1 ≠ [] := by
  unfold splitName
  split
  · simp only
    split
    · exact nonempty
    · assumption
  · exact nonempty

theorem stem_ne_nil (named : path.fileName?.isSome) : path.stem ≠ [] := by
  obtain ⟨name, found⟩ := Option.isSome_iff_exists.mp named
  have counts := List.mem_of_getLast? (fileName?_eq_some_iff.mp found).1
  have nonempty : name ≠ [] := by
    rintro rfl
    cases (List.mem_filter.mp counts).2
  rw [stem_eq found]
  exact splitName_fst_ne_nil nonempty

end Path

/-! ## The place of an output -/

namespace Settings

variable {settings : Settings} {outDir : Option Path} {first second : Path}

/-- What is put behind every stem. -/
def outputEnding (settings : Settings) : Text :=
  settings.outputSuffix ++ '.' :: settings.fileExtension

/-- The part of the ending in front of its first slash. -/
def endingHead (settings : Settings) : Text :=
  settings.outputEnding.takeWhile (· ≠ '/')

theorem slash_notMem_endingHead (settings : Settings) : '/' ∉ settings.endingHead := by
  intro member
  have others : settings.endingHead.all (· ≠ '/') = true := List.all_takeWhile
  simpa using List.all_eq_true.mp others '/' member

/-- The components that stand behind the first slash of the ending. -/
def endingTail (settings : Settings) : List PathComponent :=
  ((Text.splitOn '/' (settings.outputEnding.dropWhile (· ≠ '/'))).filter (!Path.isVoid ·)).map
    Path.componentOfPiece

theorem components_outputName (dir : Path) {stem : Text} (nonempty : stem ≠ []) (flat : '/' ∉ stem) :
    (dir.join (settings.outputName stem)).components =
      (dir.join (stem ++ settings.endingHead)).components ++ settings.endingTail := by
  have name : settings.outputName stem = stem ++ settings.endingHead ++
      settings.outputEnding.dropWhile (· ≠ '/') := by
    rw [outputName, List.append_assoc, List.append_assoc, endingHead, List.takeWhile_append_dropWhile,
      outputEnding]
  rw [name, endingTail]
  cases behind : settings.outputEnding.dropWhile (· ≠ '/') with
  | nil =>
      rw [List.append_nil]
      exact (List.append_nil _).symm
  | cons head more =>
      have slash : head = '/' := by
        have stops := List.head?_dropWhile_not (· ≠ '/') settings.outputEnding
        rw [behind] at stops
        simpa using stops
      subst slash
      have piece : stem ++ settings.endingHead ≠ [] := List.append_ne_nil_of_left_ne_nil nonempty _
      have plain : '/' ∉ stem ++ settings.endingHead := by
        simp [flat, settings.slash_notMem_endingHead]
      rw [Path.join_append_slash piece plain,
        Path.components_append_slash (Path.join_text_ne_nil dir piece), Text.splitOn, if_pos rfl]
      rfl

/-- Two outputs are the same if they are so up to the first slash of their ending. -/
theorem same_outputPath_iff (named : first.fileName?.isSome) (other : second.fileName?.isSome) :
    (settings.outputPath first outDir).same (settings.outputPath second outDir) = true ↔
      ((outDir.getD first.parent).join (first.stem ++ settings.endingHead)).components =
        ((outDir.getD second.parent).join (second.stem ++ settings.endingHead)).components := by
  rw [Path.same, decide_eq_true_iff, outputPath_eq_join named, outputPath_eq_join other]
  change ((outDir.getD first.parent).join (settings.outputName first.stem)).components =
    ((outDir.getD second.parent).join (settings.outputName second.stem)).components ↔ _
  -- the tail is the same behind both
  rw [components_outputName _ (Path.stem_ne_nil named) first.slash_notMem_fileStem,
    components_outputName _ (Path.stem_ne_nil other) second.slash_notMem_fileStem,
    List.append_left_inj]

end Settings

/-! ## Plans -/

section Plan

variable {settings : Settings} {outDir : Option Path}

def plannedOutput (settings : Settings) (outDir : Option Path) (source : Path) : PlannedOutput :=
  ⟨source, settings.outputPath source outDir⟩

def Apart (settings : Settings) (outDir : Option Path) (first second : Path) : Prop :=
  (settings.outputPath first outDir).same (settings.outputPath second outDir) = false

/-- A source whose output is taken, and the source in front of it that took it; the outputs of all
sources in front of it are different from one another. -/
structure ClashesAt (settings : Settings) (outDir : Option Path) (sources : List Path)
    (clash : OutputClash) (earlier later : List Path) : Prop where
  split : sources = earlier ++ clash.second :: later
  first : clash.first ∈ earlier
  apart : earlier.Pairwise (Apart settings outDir)
  same : ¬ Apart settings outDir clash.first clash.second
  output : clash.output = settings.outputPath clash.second outDir

/-- Behind sources with different outputs, planning goes through and keeps the outputs different,
or it stops at the first output that is taken. -/
theorem planBehind_spec {done : List Path} (apart : done.Pairwise (Apart settings outDir))
    (rest : List Path) :
    (planBehind settings outDir (done.map (plannedOutput settings outDir)) rest =
        .ok (rest.map (plannedOutput settings outDir)) ∧
      (done ++ rest).Pairwise (Apart settings outDir)) ∨
    ∃ clash earlier later,
      planBehind settings outDir (done.map (plannedOutput settings outDir)) rest = .error clash ∧
        ClashesAt settings outDir (done ++ rest) clash earlier later := by
  induction rest generalizing done with
  | nil =>
      rw [List.append_nil]
      exact .inl ⟨rfl, apart⟩
  | cons source rest inductionHypothesis =>
      rw [planBehind]
      cases taken : (done.map (plannedOutput settings outDir)).find?
          (fun earlier => earlier.output.same (settings.outputPath source outDir)) with
      | some earlier =>
          have member := List.mem_of_find?_eq_some taken
          have same := List.find?_some taken
          obtain ⟨first, firstMember, rfl⟩ := List.mem_map.mp member
          refine .inr ⟨⟨settings.outputPath source outDir, first, source⟩, done, rest, rfl, rfl,
            firstMember, apart, ?_, rfl⟩
          simpa [Apart, plannedOutput] using same
      | none =>
          have free : ∀ earlier ∈ done, Apart settings outDir earlier source := by
            intro earlier member
            have other := List.find?_eq_none.mp taken _ (List.mem_map_of_mem member)
            simpa [Apart, plannedOutput] using other
          have grown : (done ++ [source]).Pairwise (Apart settings outDir) := by
            refine List.pairwise_append.mpr ⟨apart, List.pairwise_singleton _ _, ?_⟩
            intro earlier member other last
            rw [List.mem_singleton.mp last]
            exact free earlier member
          have step := inductionHypothesis grown
          rw [List.map_append, List.map_singleton, List.append_assoc, List.singleton_append] at step
          rcases step with ⟨success, whole⟩ | ⟨clash, earlier, later, failure, clashes⟩
          · refine .inl ⟨?_, whole⟩
            change Except.map _ (planBehind settings outDir (done.map (plannedOutput settings outDir) ++
              [plannedOutput settings outDir source]) rest) = _
            rw [success]
            rfl
          · refine .inr ⟨clash, earlier, later, ?_, clashes⟩
            change Except.map _ (planBehind settings outDir (done.map (plannedOutput settings outDir) ++
              [plannedOutput settings outDir source]) rest) = _
            rw [failure]
            rfl

theorem ClashesAt.exists_positions {sources earlier later : List Path} {clash : OutputClash}
    (clashes : ClashesAt settings outDir sources clash earlier later) :
    ∃ front between, sources = front ++ clash.first :: (between ++ clash.second :: later) := by
  obtain ⟨front, between, same⟩ := List.append_of_mem clashes.first
  refine ⟨front, between, ?_⟩
  rw [clashes.split, same, List.append_assoc, List.cons_append]

theorem apart_of_positions {first second : Path} {front between behind : List Path}
    (apart : (front ++ first :: (between ++ second :: behind)).Pairwise (Apart settings outDir)) :
    Apart settings outDir first second :=
  List.rel_of_pairwise_cons (List.pairwise_append.mp apart).2.1
    (List.mem_append_right between List.mem_cons_self)

theorem planOutputs_spec (settings : Settings) (outDir : Option Path) (sources : List Path) :
    (planOutputs settings outDir sources = .ok (sources.map (plannedOutput settings outDir)) ∧
      sources.Pairwise (Apart settings outDir)) ∨
    ∃ clash earlier later, planOutputs settings outDir sources = .error clash ∧
      ClashesAt settings outDir sources clash earlier later :=
  planBehind_spec .nil sources

/-- There is a plan if and only if the outputs are different. -/
theorem planOutputs_cases (settings : Settings) (outDir : Option Path) (sources : List Path) :
    (sources.Pairwise (Apart settings outDir) ∧
      planOutputs settings outDir sources = .ok (sources.map (plannedOutput settings outDir))) ∨
    (¬ sources.Pairwise (Apart settings outDir) ∧
      ∃ clash, planOutputs settings outDir sources = .error clash) := by
  rcases planOutputs_spec settings outDir sources with
    ⟨success, apart⟩ | ⟨clash, earlier, later, failure, clashes⟩
  · exact .inl ⟨apart, success⟩
  · refine .inr ⟨fun apart => clashes.same ?_, clash, failure⟩
    obtain ⟨front, between, split⟩ := clashes.exists_positions
    exact apart_of_positions (split ▸ apart)

end Plan

end StyleMacros
