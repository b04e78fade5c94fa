import StyleMacros.Proofs.Command.Freshness
import StyleMacros.Proofs.Command.Respelling

/-!
# Discovery

Roots can lie in one another, and a file is then found from several of them. It is found once if
its paths have the same components, which is so if the path of the inner root goes on from the path
of the outer one. A further root that does so, and stands for sources only, changes neither what is
found nor what is generated.
-/

set_option autoImplicit false

namespace StyleMacros

variable {settings : Settings} {workspace : Workspace} {roots sources : List Path}
  {root outer inner source : Path} {names : List Text}

/-! ## Paths that go on with names -/

theorem Path.components_foldl_join (root : Path) (named : ∀ name ∈ names, Path.IsName name) :
    (names.foldl Path.join root).components = root.components ++ names.map .name := by
  induction names generalizing root with
  | nil => exact (List.append_nil _).symm
  | cons name others inductionHypothesis =>
      rw [List.foldl_cons, inductionHypothesis _ fun other member =>
        named other (List.mem_cons_of_mem name member), Path.components_join
          (named name List.mem_cons_self), List.append_assoc, List.map_cons, List.singleton_append]

namespace Workspace

theorem locate_of_isFile (file : workspace.isFile source = true) :
    workspace.locate source = .ok (workspace.placeOf source) := by
  obtain ⟨content, found⟩ := isFile_iff.mp file
  exact (node?_eq_some_iff.mp found).1

theorem locate_of_isDirectory (directory : workspace.isDirectory source = true) :
    workspace.locate source = .ok (workspace.placeOf source) :=
  (node?_eq_some_iff.mp (isDirectory_iff.mp directory)).1

theorem not_isFile_of_isDirectory (directory : workspace.isDirectory source = true) :
    workspace.isFile source = false :=
  have same : workspace.Grows (fun _ => True) workspace := .refl workspace
  (same.isDirectory directory).2

theorem fileName?_of_isFile (file : workspace.isFile source = true) :
    source.fileName? = some source.lastName := by
  obtain ⟨content, found⟩ := isFile_iff.mp file
  obtain ⟨-, named, -⟩ := exists_holder found
  exact Path.fileName?_eq_lastName named

/-- Whether a file is a source can be seen from its place, which ends in its name. -/
theorem isSource_eq_of_placeOf {other : Path} (file : workspace.isFile source = true)
    (otherFile : workspace.isFile other = true)
    (same : workspace.placeOf source = workspace.placeOf other) :
    settings.isSource source = settings.isSource other := by
  have named := fileName?_of_isFile file
  have otherNamed := fileName?_of_isFile otherFile
  obtain ⟨holder, place⟩ := placeOf_eq_concat workspace named
  obtain ⟨otherHolder, otherPlace⟩ := placeOf_eq_concat workspace otherNamed
  rw [place, otherPlace] at same
  have names : source.lastName = other.lastName :=
    List.singleton_inj.mp (List.append_inj' same rfl).2
  rw [Settings.isSource_eq named, Settings.isSource_eq otherNamed, names]

/-! ## What a root finds -/

def sourcesBelow (settings : Settings) (workspace : Workspace) (root : Path) : List Path :=
  ((workspace.tree.filesBelow (workspace.placeOf root)).map (List.foldl Path.join root)).filter
    settings.isSource

theorem standsFor_iff :
    workspace.StandsFor settings root sources ↔
      workspace.isFile root = true ∧ sources = [root] ∨
        workspace.isDirectory root = true ∧ sources = workspace.sourcesBelow settings root := by
  rw [StandsFor]
  refine or_congr_right ⟨?_, ?_⟩
  · rintro ⟨-, directory, files, listed, rfl⟩
    rw [filesBelow, locate_of_isDirectory directory] at listed
    cases listed
    exact ⟨directory, rfl⟩
  · rintro ⟨directory, rfl⟩
    refine ⟨not_isFile_of_isDirectory directory, directory, _, ?_, rfl⟩
    rw [filesBelow, locate_of_isDirectory directory]
    rfl

theorem mem_sourcesBelow_iff :
    source ∈ workspace.sourcesBelow settings root ↔
      settings.isSource source = true ∧ ∃ names ≠ [], source = names.foldl Path.join root ∧
        ∃ content, workspace.tree.node? (workspace.placeOf root ++ names) =
          some (.file content) := by
  rw [sourcesBelow, List.mem_filter, List.mem_map, and_comm]
  refine and_congr_right fun _ => ⟨?_, ?_⟩
  · rintro ⟨names, inside, rfl⟩
    obtain ⟨nonempty, found⟩ := FileTree.mem_filesBelow_iff.mp inside
    exact ⟨names, nonempty, rfl, found⟩
  · rintro ⟨names, nonempty, rfl, found⟩
    exact ⟨names, FileTree.mem_filesBelow_iff.mpr ⟨nonempty, found⟩, rfl⟩

/-- A source is among those that a root stands for. -/
def Finds (settings : Settings) (workspace : Workspace) (root source : Path) : Prop :=
  workspace.isFile root = true ∧ source = root ∨
    workspace.isDirectory root = true ∧ source ∈ workspace.sourcesBelow settings root

theorem StandsFor.mem_iff (stands : workspace.StandsFor settings root sources) :
    source ∈ sources ↔ workspace.Finds settings root source := by
  rcases standsFor_iff.mp stands with ⟨file, rfl⟩ | ⟨directory, rfl⟩
  · have other : workspace.isDirectory root ≠ true := fun directory => by
      rw [not_isFile_of_isDirectory directory] at file
      cases file
    simp [Finds, file, other]
  · simp [Finds, directory, not_isFile_of_isDirectory directory]

theorem StandForAll.mem_iff (all : workspace.StandForAll settings roots sources) :
    source ∈ sources ↔ ∃ root ∈ roots, workspace.Finds settings root source := by
  induction all with
  | nil => simp
  | cons first others inductionHypothesis =>
      rw [List.mem_append, first.mem_iff, inductionHypothesis, List.exists_mem_cons_iff]

theorem exists_standForAll
    (exist : ∀ root ∈ roots, workspace.isFile root = true ∨ workspace.isDirectory root = true) :
    ∃ sources, workspace.StandForAll settings roots sources := by
  induction roots with
  | nil => exact ⟨[], .nil⟩
  | cons root others inductionHypothesis =>
      obtain ⟨here, behind⟩ := List.forall_mem_cons.mp exist
      obtain ⟨rest, all⟩ := inductionHypothesis behind
      rcases here with file | directory
      · exact ⟨_, .cons (standsFor_iff.mpr (.inl ⟨file, rfl⟩)) all⟩
      · exact ⟨_, .cons (standsFor_iff.mpr (.inr ⟨directory, rfl⟩)) all⟩

theorem Finds.exists_names (proper : workspace.tree.Proper)
    (finds : workspace.Finds settings root source) :
    workspace.isFile source = true ∧ ∃ names, (∀ name ∈ names, Path.IsName name) ∧
      source = names.foldl Path.join root ∧
        workspace.placeOf source = workspace.placeOf root ++ names := by
  rcases finds with ⟨file, rfl⟩ | ⟨directory, below⟩
  · exact ⟨file, [], fun _ member => (List.not_mem_nil member).elim, rfl, (List.append_nil _).symm⟩
  · obtain ⟨-, names, -, rfl, content, found⟩ := mem_sourcesBelow_iff.mp below
    obtain ⟨present, place⟩ := node?_foldl_join proper directory names found
    refine ⟨isFile_iff.mpr ⟨content, present⟩, names, fun name member => ?_, rfl, place⟩
    exact proper _ (FileTree.node?_eq_some_iff.mp found) name (List.mem_append_right _ member)

/-! ## Roots in one another -/

/-- The inner path leads into what the outer one leads to, by way of the names. -/
def LiesIn (workspace : Workspace) (inner outer : Path) (names : List Text) : Prop :=
  ∃ location, workspace.locate outer = .ok location ∧
    workspace.locate inner = .ok (location ++ names)

theorem LiesIn.placeOf (lies : workspace.LiesIn inner outer names) :
    workspace.placeOf inner = workspace.placeOf outer ++ names := by
  obtain ⟨location, located, inside⟩ := lies
  rw [← eq_placeOf_of_locate located, ← eq_placeOf_of_locate inside]

/-- Both roots find the same file, under one path or under two. -/
def FindCommon (settings : Settings) (workspace : Workspace) (outer inner : Path) : Prop :=
  ∃ first second, workspace.Finds settings outer first ∧ workspace.Finds settings inner second ∧
    workspace.locate first = workspace.locate second

/-- If both roots find the same file, then the path of the inner one has the components of the
path of the outer one with the names on the way behind them. -/
def GoesOn (settings : Settings) (workspace : Workspace) (outer inner : Path)
    (names : List Text) : Prop :=
  workspace.FindCommon settings outer inner → (names.foldl Path.join outer).same inner = true

/-- Wherever a root lies in another one, its path goes on from there. -/
def SpelledAlike (settings : Settings) (workspace : Workspace) (roots : List Path) : Prop :=
  ∀ outer ∈ roots, ∀ inner ∈ roots, ∀ names, workspace.LiesIn inner outer names →
    workspace.GoesOn settings outer inner names

theorem Finds.locate_root (finds : workspace.Finds settings root source) :
    workspace.locate root = .ok (workspace.placeOf root) := by
  rcases finds with ⟨file, -⟩ | ⟨directory, -⟩
  · exact locate_of_isFile file
  · exact locate_of_isDirectory directory

theorem SpelledAlike.components_eq_of_prefix (alike : workspace.SpelledAlike settings roots)
    (proper : workspace.tree.Proper) {first second : Path} (member : outer ∈ roots)
    (otherMember : inner ∈ roots) (finds : workspace.Finds settings outer first)
    (otherFinds : workspace.Finds settings inner second)
    (same : workspace.locate first = workspace.locate second)
    (inside : workspace.placeOf inner = workspace.placeOf outer ++ names) :
    first.components = second.components := by
  have lies : workspace.LiesIn inner outer names :=
    ⟨_, finds.locate_root, inside ▸ otherFinds.locate_root⟩
  have spelled : (names.foldl Path.join outer).components = inner.components :=
    of_decide_eq_true
      (alike outer member inner otherMember names lies ⟨first, second, finds, otherFinds, same⟩)
  obtain ⟨file, way, named, rfl, place⟩ := finds.exists_names proper
  obtain ⟨otherFile, rest, restNamed, rfl, otherPlace⟩ := otherFinds.exists_names proper
  have split : way = names ++ rest := by
    rw [locate_of_isFile file, locate_of_isFile otherFile, place, otherPlace, inside,
      List.append_assoc, Except.ok.injEq, List.append_cancel_left_eq] at same
    exact same
  have namesNamed : ∀ name ∈ names, Path.IsName name := fun name present =>
    named name (split ▸ List.mem_append_left rest present)
  rw [Path.components_foldl_join outer named, Path.components_foldl_join inner restNamed, ← spelled,
    Path.components_foldl_join outer namesNamed, split, List.map_append, List.append_assoc]

theorem SpelledAlike.components_eq (alike : workspace.SpelledAlike settings roots)
    (proper : workspace.tree.Proper) {first second root other : Path} (member : root ∈ roots)
    (otherMember : other ∈ roots) (finds : workspace.Finds settings root first)
    (otherFinds : workspace.Finds settings other second)
    (same : workspace.locate first = workspace.locate second) :
    first.components = second.components := by
  obtain ⟨file, names, -, -, place⟩ := finds.exists_names proper
  obtain ⟨otherFile, others, -, -, otherPlace⟩ := otherFinds.exists_names proper
  have places : workspace.placeOf root ++ names = workspace.placeOf other ++ others := by
    rw [locate_of_isFile file, locate_of_isFile otherFile] at same
    rw [← place, ← otherPlace, Except.ok.inj same]
  -- one of the roots lies in the other
  rcases List.append_eq_append_iff.mp places with ⟨between, inside, -⟩ | ⟨between, inside, -⟩
  · exact alike.components_eq_of_prefix proper member otherMember finds otherFinds same inside
  · exact (alike.components_eq_of_prefix proper otherMember member otherFinds finds same.symm
      inside).symm

theorem StandForAll.isFile_of_mem_sorted (all : workspace.StandForAll settings roots sources)
    (proper : workspace.tree.Proper) (member : source ∈ Path.sorted sources) :
    workspace.isFile source = true := by
  obtain ⟨root, -, finds⟩ := all.mem_iff.mp (Path.mem_of_mem_sorted member)
  exact (finds.exists_names proper).1

/-- No file is found under two paths. -/
theorem SpelledAlike.located_once (alike : workspace.SpelledAlike settings roots)
    (proper : workspace.tree.Proper) (all : workspace.StandForAll settings roots sources) :
    (Path.sorted sources).Pairwise fun first second =>
      workspace.locate first ≠ workspace.locate second := by
  refine (Path.sorted_increasing sources).imp_of_mem fun {first second} member otherMember less => ?_
  intro same
  obtain ⟨root, listed, finds⟩ := all.mem_iff.mp (Path.mem_of_mem_sorted member)
  obtain ⟨other, otherListed, otherFinds⟩ := all.mem_iff.mp (Path.mem_of_mem_sorted otherMember)
  have equal := alike.components_eq proper listed otherListed finds otherFinds same
  exact less.ne (Path.key_eq_iff.mpr equal)

theorem spelledAlike_of_places
    (spelled : ∀ outer ∈ roots, ∀ inner ∈ roots,
      workspace.placeOf outer <+: workspace.placeOf inner →
        (((workspace.placeOf inner).drop (workspace.placeOf outer).length).foldl Path.join
          outer).same inner = true) :
    workspace.SpelledAlike settings roots := by
  intro outer member inner otherMember names lies _
  have same := spelled outer member inner otherMember ⟨names, lies.placeOf.symm⟩
  rwa [lies.placeOf, List.drop_left] at same

/-! ## Roots that add nothing -/

/-- A root that lies in a directory stands for nothing but sources below the directory, and its
path goes on from there. -/
structure Continues (settings : Settings) (workspace : Workspace) (outer inner : Path)
    (names : List Text) : Prop where
  directory : workspace.isDirectory outer = true
  lies : workspace.LiesIn inner outer names
  spelled : workspace.GoesOn settings outer inner names
  taken : workspace.isDirectory inner = true ∨
    workspace.isFile inner = true ∧ settings.isSource inner = true

theorem Continues.isSource (continues : workspace.Continues settings outer inner names)
    (finds : workspace.Finds settings inner source) : settings.isSource source = true := by
  rcases finds with ⟨file, rfl⟩ | ⟨-, below⟩
  · rcases continues.taken with directory | ⟨-, isSource⟩
    · rw [not_isFile_of_isDirectory directory] at file
      cases file
    · exact isSource
  · exact (mem_sourcesBelow_iff.mp below).1

/-- What is found from the inner root is found from the outer one, under the same path up to the
spelling. -/
theorem Continues.exists_found (continues : workspace.Continues settings outer inner names)
    (proper : workspace.tree.Proper) (finds : workspace.Finds settings inner source) :
    ∃ other, workspace.Finds settings outer other ∧ other.components = source.components := by
  obtain ⟨file, rest, restNamed, rfl, place⟩ := finds.exists_names proper
  obtain ⟨content, found⟩ := isFile_iff.mp file
  have present := (node?_eq_some_iff.mp found).2
  rw [place, continues.lies.placeOf, List.append_assoc] at present
  have named : ∀ name ∈ names, Path.IsName name := fun name member =>
    proper _ (FileTree.node?_eq_some_iff.mp present) name
      (List.mem_append_right _ (List.mem_append_left rest member))
  have nonempty : names ++ rest ≠ [] := by
    intro none
    have holds := (node?_eq_some_iff.mp (isDirectory_iff.mp continues.directory)).2
    rw [none, List.append_nil, holds] at present
    cases present
  obtain ⟨reached, otherPlace⟩ :=
    node?_foldl_join proper continues.directory (names ++ rest) present
  have otherFile := isFile_iff.mpr ⟨content, reached⟩
  have places : workspace.placeOf ((names ++ rest).foldl Path.join outer) =
      workspace.placeOf (rest.foldl Path.join inner) := by
    rw [otherPlace, place, continues.lies.placeOf, List.append_assoc]
  have otherFinds : workspace.Finds settings outer ((names ++ rest).foldl Path.join outer) := by
    refine .inr ⟨continues.directory, mem_sourcesBelow_iff.mpr ⟨?_, _, nonempty, rfl, content,
      present⟩⟩
    rw [isSource_eq_of_placeOf otherFile file places]
    exact continues.isSource finds
  have located : workspace.locate ((names ++ rest).foldl Path.join outer) =
      workspace.locate (rest.foldl Path.join inner) := by
    rw [locate_of_isFile otherFile, locate_of_isFile file, places]
  have spelled : (names.foldl Path.join outer).components = inner.components :=
    of_decide_eq_true (continues.spelled ⟨_, _, otherFinds, finds, located⟩)
  refine ⟨_, otherFinds, ?_⟩
  rw [List.foldl_append, Path.components_foldl_join _ restNamed,
    Path.components_foldl_join _ restNamed, spelled]

structure SameFile (workspace : Workspace) (source other : Path) : Prop where
  components : source.components = other.components
  file : workspace.isFile source = true
  otherFile : workspace.isFile other = true

theorem SameFile.locate_eq {other : Path} (same : workspace.SameFile source other) :
    workspace.locate source = workspace.locate other := by
  rw [locate_of_isFile same.file, locate_of_isFile same.otherFile, placeOf_congr same.components]

theorem SameFile.respelled_outputPath {other : Path} (same : workspace.SameFile source other)
    (settings : Settings) (outDir : Option Path) :
    (settings.outputPath source outDir).Respelled (settings.outputPath other outDir) := by
  refine settings.respelled_outputPath outDir same.components ?_
  rw [fileName?_of_isFile same.file]
  rfl

theorem Continues.sameFiles {front back others : List Path}
    (continues : workspace.Continues settings outer inner names) (proper : workspace.tree.Proper)
    (listed : outer ∈ front ++ back)
    (all : workspace.StandForAll settings (front ++ back) sources)
    (more : workspace.StandForAll settings (front ++ inner :: back) others) :
    List.Forall₂ workspace.SameFile (Path.sorted others) (Path.sorted sources) := by
  have components : (Path.sorted others).map Path.components =
      (Path.sorted sources).map Path.components := by
    refine Path.sorted_components_congr (fun path member => ?_) fun path member => ?_
    · obtain ⟨root, rootListed, finds⟩ := more.mem_iff.mp member
      rcases List.mem_append.mp rootListed with before | behind
      · exact ⟨path, all.mem_iff.mpr ⟨root, List.mem_append_left _ before, finds⟩, rfl⟩
      · rcases List.mem_cons.mp behind with rfl | after
        · obtain ⟨other, found, same⟩ := continues.exists_found proper finds
          exact ⟨other, all.mem_iff.mpr ⟨outer, listed, found⟩, same⟩
        · exact ⟨path, all.mem_iff.mpr ⟨root, List.mem_append_right _ after, finds⟩, rfl⟩
    · obtain ⟨root, rootListed, finds⟩ := all.mem_iff.mp member
      refine ⟨path, more.mem_iff.mpr ⟨root, ?_, finds⟩, rfl⟩
      exact (List.mem_append.mp rootListed).elim (List.mem_append_left _) fun after =>
        List.mem_append_right _ (List.mem_cons_of_mem _ after)
  have pairs : List.Forall₂ (fun path other : Path => path.components = other.components)
      (Path.sorted others) (Path.sorted sources) := by
    rwa [← List.forall₂_eq_eq_eq, List.forall₂_map_left_iff, List.forall₂_map_right_iff]
      at components
  have lefts := (List.forall₂_and_left _ _).mpr
    ⟨fun _ => more.isFile_of_mem_sorted proper, pairs⟩
  have both := (List.forall₂_and_left _ _).mpr
    ⟨fun _ => all.isFile_of_mem_sorted proper, List.Forall₂.flip lefts⟩
  exact (List.Forall₂.flip both).imp fun _ _ ⟨otherFile, file, same⟩ => ⟨same, file, otherFile⟩

end Workspace

/-! ## Planning and generating -/

section Generating

variable {outDir : Option Path} {others : List Path} {before after : HostState}

open StyleMacros.Action

theorem succeeds_findSources_iff {found : List Path} :
    (findSources settings roots).Succeeds before found after ↔
      ∃ sources, before.workspace.StandForAll settings roots sources ∧
        Path.sorted sources = found ∧ before = after := by
  simp only [findSources, succeeds_bind_iff, succeeds_sourcesUnder_iff, succeeds_pure_iff]
  constructor
  · rintro ⟨sources, _, ⟨all, rfl⟩, rfl, rfl⟩
    exact ⟨sources, all, rfl, rfl⟩
  · rintro ⟨sources, all, rfl, rfl⟩
    exact ⟨sources, before, ⟨all, rfl⟩, rfl, rfl⟩

theorem alikeIn_findSources (all : workspace.StandForAll settings roots sources)
    {further : List Path} (more : workspace.StandForAll settings further others) :
    AlikeIn workspace
      (fun found also => found = Path.sorted sources ∧ also = Path.sorted others)
      (findSources settings roots) (findSources settings further) := by
  intro before other same otherSame
  have found : (findSources settings roots).Succeeds before (Path.sorted sources) before :=
    succeeds_findSources_iff.mpr ⟨sources, same.symm ▸ all, rfl, rfl⟩
  have also : (findSources settings further).Succeeds other (Path.sorted others) other :=
    succeeds_findSources_iff.mpr ⟨others, otherSame.symm ▸ more, rfl, rfl⟩
  rw [found, also]
  exact .ok ⟨rfl, rfl⟩ (same.trans otherSame.symm)

theorem Workspace.SameFile.respelled {other : Path} (same : workspace.SameFile source other) :
    (plannedOutput settings outDir source).Respelled workspace
      (plannedOutput settings outDir other) where
  source := same.components
  file := same.file
  otherFile := same.otherFile
  output := same.respelled_outputPath settings outDir

theorem pairwise_apart_iff :
    sources.Pairwise (Apart settings outDir) ↔
      (sources.map fun source => (settings.outputPath source outDir).components).Nodup := by
  rw [List.Nodup, List.pairwise_map]
  refine iff_of_eq (congrArg (List.Pairwise · sources) ?_)
  funext first second
  rw [Apart, Path.same, decide_eq_false_iff_not]

theorem alikeIn_planOutputs (same : List.Forall₂ workspace.SameFile sources others) :
    AlikeIn workspace (List.Forall₂ (PlannedOutput.Respelled workspace))
      (ofExcept OutputClash.diagnostic (planOutputs settings outDir sources))
      (ofExcept OutputClash.diagnostic (planOutputs settings outDir others)) := by
  have respelled : List.Forall₂ (PlannedOutput.Respelled workspace)
      (sources.map (plannedOutput settings outDir)) (others.map (plannedOutput settings outDir)) :=
    List.forall₂_map_left_iff.mpr (List.forall₂_map_right_iff.mpr
      (same.imp fun _ _ => Workspace.SameFile.respelled))
  have outputs : (sources.map fun source => (settings.outputPath source outDir).components) =
      others.map fun source => (settings.outputPath source outDir).components := by
    rw [← List.forall₂_eq_eq_eq, List.forall₂_map_left_iff, List.forall₂_map_right_iff]
    exact same.imp fun _ _ file => (file.respelled_outputPath settings outDir).components
  have apart : sources.Pairwise (Apart settings outDir) ↔ others.Pairwise (Apart settings outDir) := by
    rw [pairwise_apart_iff, pairwise_apart_iff, outputs]
  intro before other left right
  rcases planOutputs_cases settings outDir sources with ⟨free, success⟩ | ⟨taken, clash, failure⟩
  · rcases planOutputs_cases settings outDir others with ⟨-, also⟩ | ⟨taken, -⟩
    · rw [success, also]
      exact .ok respelled (left.trans right.symm)
    · exact absurd (apart.mp free) taken
  · rcases planOutputs_cases settings outDir others with ⟨free, -⟩ | ⟨-, otherClash, also⟩
    · exact absurd (apart.mpr free) taken
    · rw [failure, also]
      exact .error (left.trans right.symm)

theorem alikeIn_generate {further : List Path} {coloured otherColoured : Bool}
    (all : workspace.StandForAll settings roots sources)
    (more : workspace.StandForAll settings further others)
    (same : List.Forall₂ workspace.SameFile (Path.sorted sources) (Path.sorted others)) :
    AlikeIn workspace (· = ·) ((Command.generate roots outDir).perform settings coloured)
      ((Command.generate further outDir).perform settings otherColoured) := by
  have planned : AlikeIn workspace (List.Forall₂ (PlannedOutput.Respelled workspace))
      (planUnder settings roots outDir) (planUnder settings further outDir) := by
    refine AlikeIn.bind (alikeIn_findSources all more) ?_
    rintro _ _ before after rfl done ⟨rfl, rfl⟩
    obtain ⟨-, -, -, rfl⟩ := succeeds_findSources_iff.mp done
    exact alikeIn_planOutputs same
  refine planned.bind ?_
  rintro plan otherPlan before after rfl done respelled
  obtain ⟨-, rfl⟩ := succeeds_planUnder_iff.mp done
  exact alikeIn_generateAll respelled

/-- Of roots that are there and are spelled alike, each file is found once. A further root that
lies in a directory among the roots and goes on from its path, and that stands for sources only,
changes neither which files are found nor how `generate` ends and what it leaves. -/
theorem discovery_finds_each_file_once (settings : Settings) (proper : before.workspace.tree.Proper)
    (exist : ∀ root ∈ roots,
      before.workspace.isFile root = true ∨ before.workspace.isDirectory root = true) :
    ∃ files, (findSources settings roots).Succeeds before files before ∧
      (∀ file ∈ files, before.workspace.isFile file = true) ∧
      (before.workspace.SpelledAlike settings roots →
        files.Pairwise fun first second =>
          before.workspace.locate first ≠ before.workspace.locate second) ∧
      ∀ front back outer inner names, roots = front ++ back → outer ∈ roots →
        before.workspace.Continues settings outer inner names →
          ∃ others, (findSources settings (front ++ inner :: back)).Succeeds before others before ∧
            others.map before.workspace.locate = files.map before.workspace.locate ∧
            ∀ outDir coloured, EndAlike (· = ·)
              (((Command.generate (front ++ inner :: back) outDir).perform settings
                coloured).ending before)
              (((Command.generate roots outDir).perform settings coloured).ending before) := by
  obtain ⟨sources, all⟩ : ∃ sources, before.workspace.StandForAll settings roots sources :=
    Workspace.exists_standForAll exist
  refine ⟨Path.sorted sources, succeeds_findSources_iff.mpr ⟨sources, all, rfl, rfl⟩,
    fun file => all.isFile_of_mem_sorted proper, fun alike => alike.located_once proper all, ?_⟩
  rintro front back outer inner names rfl listed continues
  have taken : before.workspace.isFile inner = true ∨ before.workspace.isDirectory inner = true :=
    continues.taken.elim .inr fun file => .inl file.1
  obtain ⟨others, more⟩ : ∃ others,
      before.workspace.StandForAll settings (front ++ inner :: back) others := by
    refine Workspace.exists_standForAll fun root member => ?_
    rcases List.mem_append.mp member with early | late
    · exact exist root (List.mem_append_left _ early)
    · rcases List.mem_cons.mp late with rfl | behind
      · exact taken
      · exact exist root (List.mem_append_right _ behind)
  have same := continues.sameFiles proper listed all more
  refine ⟨Path.sorted others, succeeds_findSources_iff.mpr ⟨others, more, rfl, rfl⟩, ?_,
    fun outDir coloured => alikeIn_generate more all same before before rfl rfl⟩
  rw [← List.forall₂_eq_eq_eq, List.forall₂_map_left_iff, List.forall₂_map_right_iff]
  exact same.imp fun _ _ file => file.locate_eq

end Generating

/-! ## A directory with a source and another file -/

def cardAndNotes : HostState :=
  ⟨⟨.ofTwoFiles "Card.swift" "notes.txt" "@UIComponent struct Card {}\n"
    "@UIComponent struct Notes {}\n" (by decide), []⟩, [], []⟩

/-- The directory is named, then the source in it, and then the directory once more. -/
theorem each_file_found_once_in_the_directory :
    ∃ files, (findSources {} [⟨"."⟩, ⟨"./Card.swift"⟩]).Succeeds cardAndNotes files cardAndNotes ∧
      (files.Pairwise fun first second =>
        cardAndNotes.workspace.locate first ≠ cardAndNotes.workspace.locate second) ∧
      ∃ others, (findSources {} [⟨"."⟩, ⟨"./"⟩, ⟨"./Card.swift"⟩]).Succeeds cardAndNotes others
          cardAndNotes ∧
        others.map cardAndNotes.workspace.locate = files.map cardAndNotes.workspace.locate ∧
        ∀ outDir coloured, Action.EndAlike (· = ·)
          (((Command.generate [⟨"."⟩, ⟨"./"⟩, ⟨"./Card.swift"⟩] outDir).perform {}
            coloured).ending cardAndNotes)
          (((Command.generate [⟨"."⟩, ⟨"./Card.swift"⟩] outDir).perform {}
            coloured).ending cardAndNotes) := by
  have alike : cardAndNotes.workspace.SpelledAlike {} [⟨"."⟩, ⟨"./Card.swift"⟩] :=
    Workspace.spelledAlike_of_places (by decide +kernel)
  have continues : cardAndNotes.workspace.Continues {} ⟨"."⟩ ⟨"./"⟩ [] :=
    ⟨by decide +kernel, ⟨[], by decide +kernel, by decide +kernel⟩, fun _ => by decide +kernel,
      .inl (by decide +kernel)⟩
  have proper : cardAndNotes.workspace.tree.Proper := by decide +kernel
  have exist : ∀ root ∈ [(⟨"."⟩ : Path), ⟨"./Card.swift"⟩],
      cardAndNotes.workspace.isFile root = true ∨ cardAndNotes.workspace.isDirectory root = true := by
    decide +kernel
  obtain ⟨files, found, -, once, more⟩ := discovery_finds_each_file_once {} proper exist
  exact ⟨files, found, once alike,
    more [⟨"."⟩] [⟨"./Card.swift"⟩] ⟨"."⟩ ⟨"./"⟩ [] rfl List.mem_cons_self continues⟩

/-- A file that is named and no source is taken as it is, and a source that is named in another way
than the directory is found twice, which leaves no plan. -/
theorem named_file_added_and_source_found_twice :
    Settings.fault? {} = none ∧ cardAndNotes.workspace.tree.Proper ∧
      (findSources {} [⟨"."⟩]).Succeeds cardAndNotes [⟨"./Card.swift"⟩] cardAndNotes ∧
      (findSources {} [⟨"."⟩, ⟨"./notes.txt"⟩]).Succeeds cardAndNotes
        [⟨"./Card.swift"⟩, ⟨"./notes.txt"⟩] cardAndNotes ∧
      (findSources {} [⟨"."⟩, ⟨"Card.swift"⟩]).Succeeds cardAndNotes
        [⟨"./Card.swift"⟩, ⟨"Card.swift"⟩] cardAndNotes ∧
      cardAndNotes.workspace.locate ⟨"./Card.swift"⟩ =
        cardAndNotes.workspace.locate ⟨"Card.swift"⟩ ∧
      (∃ generated, ((Command.generate [⟨"."⟩] (some ⟨"gen"⟩)).perform {} false).Succeeds
        cardAndNotes true generated) ∧
      ∀ well after, ¬ ((Command.generate [⟨"."⟩, ⟨"Card.swift"⟩] (some ⟨"gen"⟩)).perform {}
        false).Succeeds cardAndNotes well after := by
  have below : cardAndNotes.workspace.StandsFor {} ⟨"."⟩ [⟨"./Card.swift"⟩] :=
    Workspace.standsFor_iff.mpr (.inr (by decide +kernel))
  have pair (file : Path) (isFile : cardAndNotes.workspace.isFile file = true)
      (ordered : file.lt ⟨"./Card.swift"⟩ = false)
      (different : Path.same ⟨"./Card.swift"⟩ file = false) :
      (findSources {} [⟨"."⟩, file]).Succeeds cardAndNotes [⟨"./Card.swift"⟩, file] cardAndNotes :=
    succeeds_findSources_iff.mpr ⟨_, .cons below (.cons (.inl ⟨isFile, rfl⟩) .nil),
      Path.sorted_pair ordered different, rfl⟩
  have twice := pair ⟨"Card.swift"⟩ (by decide +kernel) (by decide +kernel) (by decide +kernel)
  have alone : Path.sorted ([⟨"./Card.swift"⟩] ++ []) = [⟨"./Card.swift"⟩] :=
    Path.sorted_singleton _
  refine ⟨by decide +kernel, by decide +kernel, ?_, ?_, twice, by decide +kernel, ?_, ?_⟩
  · exact succeeds_findSources_iff.mpr ⟨_, .cons below .nil, alone, rfl⟩
  · exact pair _ (by decide +kernel) (by decide +kernel) (by decide +kernel)
  · refine ⟨_, succeeds_generate_iff.mpr ⟨[⟨⟨"./Card.swift"⟩, ⟨"gen/Card+Generated.swift"⟩⟩],
      ⟨_, .cons below .nil, ?_⟩, succeeds_of_answers (by decide +kernel)⟩⟩
    rw [alone]
    decide +kernel
  · intro well after done
    obtain ⟨plan, _, planned, -⟩ := succeeds_bind_iff.mp done
    obtain ⟨files, _, found, made⟩ := succeeds_bind_iff.mp planned
    cases twice.symm.trans found
    have none : (planOutputs {} (some ⟨"gen"⟩)
        [⟨"./Card.swift"⟩, ⟨"Card.swift"⟩]).toOption = none := by decide +kernel
    rw [(succeeds_ofExcept_iff.mp made).1] at none
    cases none

end StyleMacros
