import Mathlib.Data.List.Induction
import StyleMacros.Proofs.Files.Components
import StyleMacros.Proofs.Files.Growth

/-!
# Where paths lead

There are no links in a file tree, so where a path leads is written in the path: if it leads to
anything, then to the location that its pieces spell out. Writing a file and making directories
keep every path where it led, and change what lies there only at the place that is written.
-/

set_option autoImplicit false

namespace StyleMacros

theorem bind_eq_ok_iff {Fault First Result : Type} {first : Except Fault First}
    {continue_ : First → Except Fault Result} {result : Result} :
    first.bind continue_ = .ok result ↔
      ∃ value, first = .ok value ∧ continue_ value = .ok result := by
  cases first <;> simp [Except.bind]

namespace FileTree

variable {location : Location} {pieces : List Text} {name : Text}

theorem stepTo_of_isName (location : Location) (named : Path.IsName name) :
    stepTo location name = (location ++ [name], true) := by
  rw [stepTo, named.1, if_neg Bool.false_ne_true, if_neg named.2.1]

theorem stepTo_of_isVoid (location : Location) {piece : Text} (void : Path.isVoid piece = true) :
    stepTo location piece = (location, false) := by
  rw [stepTo, void, if_pos rfl]

theorem isName_of_stepTo (plain : '/' ∉ name) (steps : (stepTo location name).2 = true) :
    Path.IsName name := by
  unfold stepTo at steps
  split at steps
  · cases steps
  · rename_i counts
    split at steps
    · cases steps
    · rename_i other
      exact ⟨Bool.eq_false_iff.mpr counts, other, plain⟩

theorem reach_append (location : Location) (front back : List Text) :
    reach location (front ++ back) = reach (reach location front) back :=
  List.foldl_append

theorem reach_filter (location : Location) (pieces : List Text) :
    reach location (pieces.filter (!Path.isVoid ·)) = reach location pieces := by
  induction pieces generalizing location with
  | nil => rfl
  | cons piece rest inductionHypothesis =>
      cases void : Path.isVoid piece with
      | false =>
          rw [List.filter_cons_of_pos (by rw [void]; rfl)]
          exact inductionHypothesis _
      | true =>
          rw [List.filter_cons_of_neg (by simp [void]), inductionHypothesis, reach, reach,
            List.foldl_cons, stepTo_of_isVoid location void]

def Proper (tree : FileTree) : Prop :=
  ∀ entry ∈ tree.nodes, ∀ name ∈ entry.1, Path.IsName name

instance (tree : FileTree) : Decidable tree.Proper :=
  inferInstanceAs (Decidable (∀ entry ∈ tree.nodes, ∀ name ∈ entry.1, Path.IsName name))

end FileTree

namespace Workspace

variable {workspace before middle after written : Workspace} {path other : Path}
  {location : Location} {node : FileNode} {name content : Text}

/-! ## Places -/

/-- The location that a path spells out. -/
def placeOf (workspace : Workspace) (path : Path) : Location :=
  FileTree.reach (workspace.start path).1 (workspace.start path).2

theorem locate_eq_ok_iff :
    workspace.locate path = .ok location ↔ path.text ≠ [] ∧
      workspace.tree.follow (workspace.start path).1 (Text.splitOn '/' path.text) = .ok location := by
  unfold locate
  split
  · rename_i empty
    simp [empty]
  · rename_i nonempty
    simp only [nonempty, ne_eq, not_false_iff, true_and]
    rfl

theorem eq_placeOf_of_locate (found : workspace.locate path = .ok location) :
    location = workspace.placeOf path :=
  FileTree.follow_eq_reach (locate_eq_ok_iff.mp found).2

theorem node?_eq_some_iff :
    workspace.node? path = some node ↔
      workspace.locate path = .ok (workspace.placeOf path) ∧
        workspace.tree.node? (workspace.placeOf path) = some node := by
  unfold node?
  cases found : workspace.locate path with
  | error fault => simp
  | ok location =>
      simp [eq_placeOf_of_locate found]

theorem isFile_iff :
    workspace.isFile path = true ↔ ∃ content, workspace.node? path = some (.file content) := by
  unfold isFile
  split
  · rename_i content found
    simp [found]
  · rename_i other
    simpa using other

theorem isDirectory_iff : workspace.isDirectory path = true ↔ workspace.node? path = some .directory := by
  simp [isDirectory]

theorem readText_eq_ok_iff :
    workspace.readText path = .ok content ↔ workspace.node? path = some (.file (.text content)) := by
  unfold readText node?
  cases workspace.locate path with
  | error fault => simp [bind, Except.bind]
  | ok location =>
      simp only [bind, Except.bind]
      split <;> simp_all

theorem placeOf_eq_concat (workspace : Workspace) (found : path.fileName? = some name) :
    ∃ holder, workspace.placeOf path = holder ++ [name] := by
  obtain ⟨last, other⟩ := Path.fileName?_eq_some_iff.mp found
  obtain ⟨front, split⟩ := List.getLast?_eq_some_iff.mp last
  have counts : Path.isVoid name = false := by
    have member : name ∈ path.steps := List.mem_of_getLast? last
    simpa [Path.steps] using (List.mem_filter.mp member).2
  refine ⟨FileTree.reach (workspace.start path).1 front, ?_⟩
  rw [placeOf, ← FileTree.reach_filter]
  change FileTree.reach _ path.steps = _
  rw [split, FileTree.reach_append]
  simp [FileTree.reach, FileTree.stepTo, counts, other]

/-! ## Growing workspaces -/

/-- The same working directory in a tree that has grown. -/
structure Grows (kind : Text → Prop) (before after : Workspace) : Prop where
  current : after.current = before.current
  tree : before.tree.Grows kind after.tree

namespace Grows

variable {kind weaker : Text → Prop}

theorem refl (workspace : Workspace) : workspace.Grows kind workspace :=
  ⟨rfl, .refl _⟩

theorem trans (first : before.Grows kind middle) (second : middle.Grows kind after) :
    before.Grows kind after :=
  ⟨second.current.trans first.current, first.tree.trans second.tree⟩

theorem mono (grown : before.Grows kind after) (implied : ∀ name, kind name → weaker name) :
    before.Grows weaker after :=
  ⟨grown.current, grown.tree.mono implied⟩

theorem start (grown : before.Grows kind after) (path : Path) :
    after.start path = before.start path := by
  rw [Workspace.start, Workspace.start, grown.current]

theorem placeOf (grown : before.Grows kind after) (path : Path) :
    after.placeOf path = before.placeOf path := by
  rw [Workspace.placeOf, Workspace.placeOf, grown.start]

theorem locate (grown : before.Grows kind after) (found : before.locate path = .ok location) :
    after.locate path = .ok location := by
  obtain ⟨nonempty, followed⟩ := locate_eq_ok_iff.mp found
  refine locate_eq_ok_iff.mpr ⟨nonempty, ?_⟩
  rw [grown.start]
  exact grown.tree.follow followed

theorem node? (grown : before.Grows kind after) {earlier : FileNode}
    (found : before.node? path = some earlier)
    (later : after.tree.node? (before.placeOf path) = some node) : after.node? path = some node := by
  obtain ⟨located, -⟩ := node?_eq_some_iff.mp found
  rw [node?_eq_some_iff, grown.placeOf]
  exact ⟨grown.locate located, later⟩

theorem isFile (grown : before.Grows kind after) (file : before.isFile path) :
    after.isFile path := by
  obtain ⟨content, found⟩ := isFile_iff.mp file
  obtain ⟨later, present⟩ := grown.tree.file (node?_eq_some_iff.mp found).2
  exact isFile_iff.mpr ⟨later, grown.node? found present⟩

theorem isDirectory (grown : before.Grows kind after) (directory : before.isDirectory path) :
    after.isDirectory path ∧ after.isFile path = false := by
  have found := isDirectory_iff.mp directory
  have present := grown.node? found (grown.tree.directory (node?_eq_some_iff.mp found).2)
  refine ⟨isDirectory_iff.mpr present, Bool.eq_false_iff.mpr fun file => ?_⟩
  obtain ⟨content, other⟩ := isFile_iff.mp file
  rw [present] at other
  cases other

/-- The paths of the files below a directory stay, with those of the new files behind them. -/
theorem filesBelow (grown : before.Grows kind after) {files : List Path}
    (found : before.filesBelow path = .ok files) :
    ∃ added, after.filesBelow path = .ok (files ++ added) ∧
      ∀ file ∈ added, ∃ holder name, file = Path.join holder name ∧ kind name := by
  unfold Workspace.filesBelow at found ⊢
  cases located : before.locate path with
  | error fault =>
      rw [located] at found
      cases found
  | ok location =>
      rw [located] at found
      cases found
      obtain ⟨added, same, named⟩ := grown.tree.filesBelow location
      refine ⟨added.map (List.foldl Path.join path), ?_, fun file member => ?_⟩
      · rw [grown.locate located, Except.map, same, List.map_append]
      · obtain ⟨names, present, rfl⟩ := List.mem_map.mp member
        obtain ⟨front, name, rfl, good⟩ := named names present
        exact ⟨front.foldl Path.join path, name, List.foldl_append, good⟩

end Grows

/-! ## Listed files -/

theorem locate_join (named : Path.IsName name) (directory : workspace.isDirectory path)
    (found : workspace.tree.node? (workspace.placeOf path ++ [name]) = some node) :
    workspace.locate (path.join name) = .ok (workspace.placeOf path ++ [name]) := by
  obtain ⟨located, holds⟩ := node?_eq_some_iff.mp (isDirectory_iff.mp directory)
  obtain ⟨nonempty, followed⟩ := locate_eq_ok_iff.mp located
  obtain ⟨front, spelled⟩ := Path.exists_join_text path name
  have step : workspace.tree.follow (workspace.placeOf path) [name] =
      .ok (workspace.placeOf path ++ [name]) := by
    rw [FileTree.follow_cons_eq_ok_iff, FileTree.stepTo_of_isName _ named]
    exact ⟨holds, by rw [found]; rfl, rfl⟩
  have start : (workspace.start (path.join name)).1 = (workspace.start path).1 := by
    rw [Workspace.start, Workspace.start, Path.isAbsolute_join named]
  refine locate_eq_ok_iff.mpr ⟨by simp [spelled, named.ne_nil], ?_⟩
  rw [start, Path.splitOn_join nonempty named]
  split
  · rename_i closed
    -- The empty piece behind the last slash of a directory's path goes nowhere.
    obtain ⟨text, same⟩ := List.getLast?_eq_some_iff.mp closed
    have pieces : Text.splitOn '/' path.text = Text.splitOn '/' text ++ [[]] := by
      rw [same, Text.splitOn_concat]
    rw [pieces, FileTree.follow_append_eq_ok_iff] at followed
    obtain ⟨half, first, last⟩ := followed
    obtain ⟨-, -, ended⟩ := FileTree.follow_cons_eq_ok_iff.mp last
    have stays : half = workspace.placeOf path := Except.ok.inj ended
    rw [pieces, List.dropLast_concat]
    exact FileTree.follow_append_eq_ok_iff.mpr ⟨half, first, stays ▸ step⟩
  · exact FileTree.follow_append_eq_ok_iff.mpr ⟨_, followed, step⟩

theorem node?_foldl_join (proper : workspace.tree.Proper) {start : Path}
    (directory : workspace.isDirectory start) (names : List Text)
    (found : workspace.tree.node? (workspace.placeOf start ++ names) = some node) :
    workspace.node? (names.foldl Path.join start) = some node ∧
      workspace.placeOf (names.foldl Path.join start) = workspace.placeOf start ++ names := by
  induction names using List.reverseRecOn generalizing node with
  | nil =>
      rw [List.append_nil] at found
      have located := (node?_eq_some_iff.mp (isDirectory_iff.mp directory)).1
      exact ⟨node?_eq_some_iff.mpr ⟨located, found⟩, (List.append_nil _).symm⟩
  | append_singleton front name inductionHypothesis =>
      have named : Path.IsName name :=
        proper _ (FileTree.node?_eq_some_iff.mp found) name (by simp)
      rw [← List.append_assoc] at found ⊢
      obtain ⟨holder, place⟩ := inductionHypothesis (FileTree.node?_parent found)
      rw [← place] at found ⊢
      have located := locate_join named (isDirectory_iff.mpr holder) found
      have same := eq_placeOf_of_locate located
      rw [List.foldl_append, List.foldl_cons, List.foldl_nil, ← same]
      exact ⟨node?_eq_some_iff.mpr ⟨same ▸ located, same ▸ found⟩, rfl⟩

/-- Every file that is listed below a directory is a file where its path leads. -/
theorem isFile_of_mem_filesBelow (proper : workspace.tree.Proper)
    (directory : workspace.isDirectory path) {files : List Path}
    (listed : workspace.filesBelow path = .ok files) (member : other ∈ files) :
    workspace.isFile other := by
  have located := (node?_eq_some_iff.mp (isDirectory_iff.mp directory)).1
  rw [filesBelow, located] at listed
  cases listed
  obtain ⟨names, below, rfl⟩ := List.mem_map.mp member
  obtain ⟨-, content, found⟩ := FileTree.mem_filesBelow_iff.mp below
  exact isFile_iff.mpr ⟨content, (node?_foldl_join proper directory names found).1⟩

/-! ## Writing -/

/-- What a workspace has become when a text has been put under a path. -/
structure Delivered (path : Path) (content : Text) (before after : Workspace) : Prop where
  grows : before.Grows (· = path.lastName) after
  /-- The path ends in a name. -/
  place : Path.IsName path.lastName ∧ ∃ holder, before.placeOf path = holder ++ [path.lastName]
  present : after.node? path = some (.file (.text content))
  others : ∀ place node, place ≠ before.placeOf path → before.tree.node? place = some node →
    after.tree.node? place = some node

theorem locateNew_eq_ok {holder : Location} (found : workspace.locateNew path = .ok (holder, name)) :
    name = path.lastName ∧ Path.IsName name ∧ workspace.tree.node? holder = some .directory ∧
      workspace.tree.follow (workspace.start path).1
        (Text.splitOn '/' path.text).dropLast = .ok holder := by
  unfold locateNew at found
  simp only [start] at found ⊢
  obtain ⟨place, followed, found⟩ := bind_eq_ok_iff.mp found
  obtain ⟨⟨⟩, checked, found⟩ := bind_eq_ok_iff.mp found
  change (if (FileTree.stepTo place path.lastName).2 = true then Except.ok (place, path.lastName)
    else throw FileFault.isADirectory) = .ok (holder, name) at found
  split at found
  · rename_i steps
    cases found
    refine ⟨rfl, FileTree.isName_of_stepTo path.slash_notMem_lastName steps, ?_, followed⟩
    exact FileTree.checkDirectory_eq_ok_iff.mp checked
  · cases found

theorem delivered_of_write (success : before.write path (.text content) = .ok after) :
    before.Delivered path content after := by
  obtain ⟨⟨holder, name⟩, located, success⟩ := bind_eq_ok_iff.mp success
  obtain ⟨tree, wrote, same⟩ := bind_eq_ok_iff.mp success
  cases same
  obtain ⟨rfl, named, directory, followed⟩ := locateNew_eq_ok located
  have grown : before.Grows (· = path.lastName) { before with tree := tree } :=
    ⟨rfl, FileTree.write_grows wrote⟩
  have pieces := Text.splitOn_eq_append_lastPiece '/' path.text
  have last : FileTree.stepTo holder (Text.lastPiece '/' path.text) = (holder ++ [path.lastName], true) :=
    FileTree.stepTo_of_isName holder named
  have place : before.placeOf path = holder ++ [path.lastName] := by
    change FileTree.reach _ (Text.splitOn '/' path.text) = _
    rw [pieces, FileTree.reach_append, ← FileTree.follow_eq_reach followed, FileTree.reach,
      List.foldl_cons, List.foldl_nil, last]
  have written : tree.node? (holder ++ [path.lastName]) = some (.file (.text content)) := by
    rw [FileTree.node?_write wrote, if_pos rfl]
  refine ⟨grown, ⟨named, holder, place⟩, ?_, fun other node apart found => ?_⟩
  · have nonempty : path.text ≠ [] := fun empty => named.ne_nil (by rw [Path.lastName, empty]; rfl)
    have arrived : tree.follow holder [Text.lastPiece '/' path.text] = .ok (holder ++ [path.lastName]) := by
      rw [FileTree.follow_cons_eq_ok_iff, last]
      exact ⟨grown.tree.directory directory, by rw [written]; rfl, rfl⟩
    rw [node?_eq_some_iff, grown.placeOf, place]
    refine ⟨locate_eq_ok_iff.mpr ⟨nonempty, ?_⟩, written⟩
    rw [pieces]
    exact FileTree.follow_append_eq_ok_iff.mpr ⟨holder, grown.tree.follow followed, arrived⟩
  · rw [FileTree.node?_write wrote, if_neg (place ▸ apart)]
    exact found

/-- Making directories adds no file and changes none. -/
theorem makeDirectories_frame (workspace : Workspace) (path : Path) :
    workspace.Grows (fun _ => False) (workspace.makeDirectories path).1 ∧
      ∀ place node, workspace.tree.node? place = some node →
        (workspace.makeDirectories path).1.tree.node? place = some node := by
  obtain ⟨grown, kept⟩ := FileTree.makeAlong_frame (workspace.start path).2 workspace.tree
    (workspace.start path).1
  exact ⟨⟨rfl, grown⟩, kept⟩

/-- Directories that are made first do not matter to what is written then. -/
theorem Delivered.after_makeDirectories {directory : Path}
    (delivered : (before.makeDirectories directory).1.Delivered path content after) :
    before.Delivered path content after := by
  obtain ⟨grown, kept⟩ := makeDirectories_frame before directory
  obtain ⟨later, ⟨named, place⟩, present, others⟩ := delivered
  rw [grown.placeOf] at place others
  refine ⟨(grown.mono fun _ impossible => impossible.elim).trans later, ⟨named, place⟩, present, ?_⟩
  exact fun place node apart found => others place node apart (kept place node found)

theorem Delivered.node?_cases (delivered : before.Delivered path content after)
    (found : before.node? other = some node) :
    before.placeOf other ≠ before.placeOf path ∧ after.node? other = some node ∨
      before.placeOf other = before.placeOf path ∧
        after.node? other = some (.file (.text content)) := by
  by_cases same : before.placeOf other = before.placeOf path
  · refine .inr ⟨same, delivered.grows.node? found ?_⟩
    rw [same, ← delivered.grows.placeOf]
    exact (node?_eq_some_iff.mp delivered.present).2
  · refine .inl ⟨same, delivered.grows.node? found ?_⟩
    exact delivered.others _ _ same (node?_eq_some_iff.mp found).2

end Workspace

end StyleMacros
