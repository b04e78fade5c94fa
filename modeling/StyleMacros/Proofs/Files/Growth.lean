import Mathlib.Data.List.Basic
import StyleMacros.Files.Workspace

/-!
# What writing adds to a file tree

Writing a file and making directories leave a tree's nodes where they are: they add nodes at the
end, and give a file another content. So a path that led somewhere leads there still, and below
a directory there are the files of before with the new ones behind them.
-/

set_option autoImplicit false

namespace StyleMacros

def FileNode.isFile : FileNode → Bool
  | .file _ => true
  | .directory => false

namespace FileTree

variable {before middle after tree : FileTree} {location place : Location}

/-! ## Shapes -/

/-- What a tree holds apart from the contents of its files: each location, with whether a file
lies there. -/
def shape (tree : FileTree) : List (Location × Bool) :=
  tree.nodes.map fun entry => (entry.1, entry.2.isFile)

theorem mem_shape_iff {isFile : Bool} :
    (location, isFile) ∈ tree.shape ↔ ∃ node, tree.node? location = some node ∧ node.isFile = isFile := by
  rw [shape, List.mem_map]
  constructor
  · rintro ⟨⟨key, node⟩, member, same⟩
    obtain ⟨rfl, rfl⟩ := Prod.mk.inj same
    exact ⟨node, node?_eq_some_iff.mpr member, rfl⟩
  · rintro ⟨node, found, rfl⟩
    exact ⟨_, node?_eq_some_iff.mp found, rfl⟩

theorem mem_shape_directory_iff :
    (location, false) ∈ tree.shape ↔ tree.node? location = some .directory := by
  rw [mem_shape_iff]
  constructor
  · rintro ⟨_ | _, found, kind⟩
    · exact found
    · cases kind
  · exact fun found => ⟨_, found, rfl⟩

theorem mem_shape_file_iff :
    (location, true) ∈ tree.shape ↔ ∃ content, tree.node? location = some (.file content) := by
  rw [mem_shape_iff]
  constructor
  · rintro ⟨_ | content, found, kind⟩
    · cases kind
    · exact ⟨content, found⟩
  · rintro ⟨content, found⟩
    exact ⟨_, found, rfl⟩

def below? (location : Location) : Location × Bool → Option Location
  | (place, true) =>
    match List.isPrefixOf? location place with
    | some (name :: names) => some (name :: names)
    | _ => none
  | (_, false) => none

/-- Which files lie below a directory depends on the shape alone. -/
theorem filesBelow_eq_filterMap_shape (tree : FileTree) (location : Location) :
    tree.filesBelow location = tree.shape.filterMap (below? location) := by
  rw [filesBelow, shape, List.filterMap_map]
  refine List.filterMap_congr fun ⟨key, node⟩ _ => ?_
  cases node with
  | directory => rfl
  | file content =>
      simp only [Function.comp_apply, FileNode.isFile, below?]
      generalize List.isPrefixOf? location key = suffix?
      rcases suffix? with _ | _ | ⟨name, names⟩ <;> rfl

theorem eq_append_of_below? {entry : Location × Bool} {names : Location}
    (found : below? location entry = some names) :
    entry = (location ++ names, true) ∧ names ≠ [] := by
  obtain ⟨key, _ | _⟩ := entry
  · cases found
  · rw [below?] at found
    split at found
    · rename_i name names split
      cases found
      exact ⟨by rw [List.isPrefixOf?_eq_some_iff_append_eq.mp split], List.cons_ne_nil _ _⟩
    · cases found

theorem mem_filesBelow_iff {names : Location} :
    names ∈ tree.filesBelow location ↔
      names ≠ [] ∧ ∃ content, tree.node? (location ++ names) = some (.file content) := by
  rw [filesBelow_eq_filterMap_shape, List.mem_filterMap]
  constructor
  · rintro ⟨entry, present, found⟩
    obtain ⟨rfl, nonempty⟩ := eq_append_of_below? found
    exact ⟨nonempty, mem_shape_file_iff.mp present⟩
  · rintro ⟨nonempty, file⟩
    obtain ⟨name, others, rfl⟩ := List.exists_cons_of_ne_nil nonempty
    refine ⟨_, mem_shape_file_iff.mpr file, ?_⟩
    rw [below?, List.isPrefixOf?_eq_some_iff_append_eq.mpr rfl]

/-! ## Growth -/

/-- The nodes of one tree with others behind them; the names of the new files are of a certain
kind. -/
def Grows (kind : Text → Prop) (before after : FileTree) : Prop :=
  ∃ added, after.shape = before.shape ++ added ∧
    ∀ place, (place, true) ∈ added → ∃ holder name, place = holder ++ [name] ∧ kind name

namespace Grows

variable {kind weaker : Text → Prop}

theorem refl (tree : FileTree) : tree.Grows kind tree :=
  ⟨[], (List.append_nil _).symm, by simp⟩

theorem trans (first : before.Grows kind middle) (second : middle.Grows kind after) :
    before.Grows kind after := by
  obtain ⟨early, earlyShape, earlyNames⟩ := first
  obtain ⟨late, lateShape, lateNames⟩ := second
  refine ⟨early ++ late, by rw [lateShape, earlyShape, List.append_assoc], fun place member => ?_⟩
  exact (List.mem_append.mp member).elim (earlyNames place) (lateNames place)

theorem mono (grown : before.Grows kind after) (implied : ∀ name, kind name → weaker name) :
    before.Grows weaker after := by
  obtain ⟨added, shape, names⟩ := grown
  refine ⟨added, shape, fun place member => ?_⟩
  obtain ⟨holder, name, same, named⟩ := names place member
  exact ⟨holder, name, same, implied name named⟩

theorem mem_shape (grown : before.Grows kind after) {entry : Location × Bool}
    (member : entry ∈ before.shape) : entry ∈ after.shape := by
  obtain ⟨added, shape, _⟩ := grown
  rw [shape]
  exact List.mem_append_left _ member

theorem directory (grown : before.Grows kind after)
    (found : before.node? location = some .directory) :
    after.node? location = some .directory :=
  mem_shape_directory_iff.mp (grown.mem_shape (mem_shape_directory_iff.mpr found))

theorem file (grown : before.Grows kind after) {content : FileContent}
    (found : before.node? location = some (.file content)) :
    ∃ content, after.node? location = some (.file content) :=
  mem_shape_file_iff.mp (grown.mem_shape (mem_shape_file_iff.mpr ⟨_, found⟩))

theorem isSome (grown : before.Grows kind after) (found : (before.node? location).isSome) :
    (after.node? location).isSome := by
  obtain ⟨_ | content, present⟩ := Option.isSome_iff_exists.mp found
  · rw [grown.directory present]
    rfl
  · obtain ⟨content, later⟩ := grown.file present
    rw [later]
    rfl

theorem filesBelow (grown : before.Grows kind after) (location : Location) :
    ∃ added, after.filesBelow location = before.filesBelow location ++ added ∧
      ∀ names ∈ added, ∃ front name, names = front ++ [name] ∧ kind name := by
  obtain ⟨added, shape, named⟩ := grown
  refine ⟨added.filterMap (below? location), ?_, fun names member => ?_⟩
  · rw [filesBelow_eq_filterMap_shape, filesBelow_eq_filterMap_shape, shape, List.filterMap_append]
  · obtain ⟨entry, present, found⟩ := List.mem_filterMap.mp member
    obtain ⟨rfl, nonempty⟩ := eq_append_of_below? found
    obtain ⟨holder, name, same, good⟩ := named _ present
    have parts := List.dropLast_concat_getLast nonempty
    rw [← parts, ← List.append_assoc] at same
    have last : names.getLast nonempty = name :=
      List.singleton_inj.mp (List.append_inj' same rfl).2
    exact ⟨names.dropLast, name, last ▸ parts.symm, good⟩

end Grows

/-! ## The changes -/

theorem shape_insert (tree : FileTree) (location : Location) (name : Text) (node : FileNode)
    (inside : tree.node? location = some .directory)
    (fresh : tree.node? (location ++ [name]) = none) :
    (tree.insert location name node inside fresh).shape =
      tree.shape ++ [(location ++ [name], node.isFile)] := by
  simp [shape, insert]

theorem shape_replace (tree : FileTree) (location : Location) (content : FileContent)
    (file : ∀ node, tree.node? location = some node → node ≠ .directory) :
    (tree.replace location content file).shape = tree.shape := by
  rw [shape, shape, replace, List.map_map]
  refine List.map_congr_left fun ⟨key, node⟩ member => ?_
  by_cases same : key = location
  · subst same
    -- Only a file is given another content, so the kind of the node stays.
    have present := file node (node?_eq_some_iff.mpr member)
    cases node
    · exact absurd rfl present
    · simp [FileNode.isFile]
  · simp [same]

theorem write_grows {written : FileTree} {name : Text} {content : FileContent}
    (success : tree.write location name content = .ok written) :
    tree.Grows (· = name) written := by
  unfold write at success
  split at success
  · cases success
    exact ⟨[], by rw [shape_replace, List.append_nil], by simp⟩
  · cases success
  · split at success
    · cases success
      refine ⟨_, shape_insert .., fun place member => ?_⟩
      simp only [FileNode.isFile, List.mem_singleton, Prod.mk.injEq, and_true] at member
      exact ⟨location, name, member, rfl⟩
    · cases success
    · cases success

/-- Making a directory adds nothing but directories, and changes no node. -/
theorem makeDirectory_frame {made : FileTree} {name : Text}
    (success : tree.makeDirectory location name = .ok made) :
    tree.Grows (fun _ => False) made ∧
      ∀ place node, tree.node? place = some node → made.node? place = some node := by
  unfold makeDirectory at success
  split at success
  · cases success
    exact ⟨.refl _, fun _ _ found => found⟩
  · cases success
  · rename_i fresh
    split at success
    · cases success
      refine ⟨⟨_, shape_insert .., by simp [FileNode.isFile]⟩, fun place node found => ?_⟩
      rw [node?_insert, if_neg, found]
      rintro rfl
      rw [fresh] at found
      cases found
    · cases success
    · cases success

theorem makeAlong_frame (pieces : List Text) (tree : FileTree) (location : Location) :
    tree.Grows (fun _ => False) (tree.makeAlong location pieces).1 ∧
      ∀ place node, tree.node? place = some node →
        (tree.makeAlong location pieces).1.node? place = some node := by
  induction pieces generalizing tree location with
  | nil => exact ⟨.refl _, fun _ _ found => found⟩
  | cons piece rest inductionHypothesis =>
      have unchanged : tree.Grows (fun _ => False) tree ∧
          ∀ place node, tree.node? place = some node → tree.node? place = some node :=
        ⟨.refl _, fun _ _ found => found⟩
      unfold makeAlong
      split
      · exact unchanged
      · split
        · exact inductionHypothesis ..
        · split
          · rename_i made success
            obtain ⟨grown, kept⟩ := makeDirectory_frame success
            obtain ⟨laterGrown, laterKept⟩ := inductionHypothesis made _
            exact ⟨grown.trans laterGrown, fun place node found => laterKept _ _ (kept _ _ found)⟩
          · exact unchanged

/-! ## Following paths -/

theorem checkDirectory_eq_ok_iff :
    tree.checkDirectory location = .ok () ↔ tree.node? location = some .directory := by
  rw [checkDirectory]
  split <;> simp_all

/-- Where the pieces of a path lead if every directory on the way is there. -/
def reach (location : Location) (pieces : List Text) : Location :=
  pieces.foldl (fun here piece => (stepTo here piece).1) location

theorem follow_cons_eq_ok_iff {piece : Text} {rest : List Text} :
    tree.follow location (piece :: rest) = .ok place ↔
      tree.node? location = some .directory ∧ (tree.node? (stepTo location piece).1).isSome ∧
        tree.follow (stepTo location piece).1 rest = .ok place := by
  rw [← checkDirectory_eq_ok_iff, follow]
  cases tree.checkDirectory location with
  | error fault => simp [bind, Except.bind]
  | ok done =>
      cases found : tree.node? (stepTo location piece).1 with
      | none => simp [bind, Except.bind, found, throw, throwThe, MonadExceptOf.throw]
      | some node => simp [bind, Except.bind, found]

theorem follow_append_eq_ok_iff {front back : List Text} :
    tree.follow location (front ++ back) = .ok place ↔
      ∃ half, tree.follow location front = .ok half ∧ tree.follow half back = .ok place := by
  induction front generalizing location with
  | nil => simp [follow]
  | cons piece rest inductionHypothesis =>
      rw [List.cons_append, follow_cons_eq_ok_iff, inductionHypothesis]
      simp only [follow_cons_eq_ok_iff]
      constructor
      · rintro ⟨here, present, half, first, second⟩
        exact ⟨half, ⟨here, present, first⟩, second⟩
      · rintro ⟨half, ⟨here, present, first⟩, second⟩
        exact ⟨here, present, half, first, second⟩

theorem follow_eq_reach {pieces : List Text} (found : tree.follow location pieces = .ok place) :
    place = reach location pieces := by
  induction pieces generalizing location with
  | nil => exact (Except.ok.inj found).symm
  | cons piece rest inductionHypothesis =>
      exact inductionHypothesis (follow_cons_eq_ok_iff.mp found).2.2

theorem Grows.follow {kind : Text → Prop} (grown : before.Grows kind after) {pieces : List Text}
    (found : before.follow location pieces = .ok place) :
    after.follow location pieces = .ok place := by
  induction pieces generalizing location with
  | nil => exact found
  | cons piece rest inductionHypothesis =>
      obtain ⟨directory, present, behind⟩ := follow_cons_eq_ok_iff.mp found
      exact follow_cons_eq_ok_iff.mpr
        ⟨grown.directory directory, grown.isSome present, inductionHypothesis behind⟩

end FileTree

end StyleMacros
