import StyleMacros.Proofs.Files.Places

/-!
# Writing what is there already

A text that is written where it can be read leaves the tree as it is, and so does making the
directories above it. A path under which a text is read ends in a name, since all else that a path
can end in leads to a directory, and its parent leads to the directory that holds the file.
-/

set_option autoImplicit false

namespace StyleMacros

namespace FileTree

variable {tree : FileTree} {location place : Location} {name : Text} {content : FileContent}
  {pieces : List Text}

/-! ## Files -/

theorem eq_of_nodes {left right : FileTree} (same : left.nodes = right.nodes) : left = right := by
  cases left
  cases right
  cases same
  rfl

theorem replace_eq_self (found : tree.node? location = some (.file content))
    (file : ∀ node, tree.node? location = some node → node ≠ .directory) :
    tree.replace location content file = tree := by
  have kept : ∀ entry ∈ tree.nodes,
      (entry.1, if entry.1 = location then .file content else entry.2) = entry := by
    rintro ⟨place, node⟩ member
    by_cases here : place = location
    · have held := node?_eq_some_iff.mpr member
      rw [here, found] at held
      rw [if_pos here, Option.some_inj.mp held]
    · rw [if_neg here]
  exact eq_of_nodes ((List.map_congr_left kept).trans (List.map_id _))

theorem write_eq_self (found : tree.node? (location ++ [name]) = some (.file content)) :
    tree.write location name content = .ok tree := by
  unfold write
  split
  · rw [replace_eq_self found]
  · rename_i directory
    rw [found] at directory
    cases directory
  · rename_i none
    rw [found] at none
    cases none

/-! ## Directories -/

theorem makeDirectory_eq_self (found : tree.node? (location ++ [name]) = some .directory) :
    tree.makeDirectory location name = .ok tree := by
  unfold makeDirectory
  split
  · rfl
  · rename_i file
    rw [found] at file
    cases file
  · rename_i none
    rw [found] at none
    cases none

theorem follow_filter (followed : tree.follow location pieces = .ok place) :
    tree.follow location (pieces.filter (!Path.isVoid ·)) = .ok place := by
  induction pieces generalizing location with
  | nil => exact followed
  | cons piece rest inductionHypothesis =>
      obtain ⟨directory, present, behind⟩ := follow_cons_eq_ok_iff.mp followed
      cases void : Path.isVoid piece with
      | false =>
          rw [List.filter_cons_of_pos (by simp [void])]
          exact follow_cons_eq_ok_iff.mpr ⟨directory, present, inductionHypothesis behind⟩
      | true =>
          rw [List.filter_cons_of_neg (by simp [void])]
          rw [stepTo_of_isVoid location void] at behind
          exact inductionHypothesis behind

/-- What leads to a directory starts at one. -/
theorem directory_of_follow (followed : tree.follow location pieces = .ok place)
    (directory : tree.node? place = some .directory) : tree.node? location = some .directory := by
  cases pieces with
  | nil => rwa [Except.ok.inj followed]
  | cons piece rest => exact (follow_cons_eq_ok_iff.mp followed).1

theorem stepTo_of_named {piece : Text} (named : (stepTo location piece).2 = true) :
    (stepTo location piece).1 = location ++ [piece] := by
  unfold stepTo at named ⊢
  split at named
  · cases named
  · split at named
    · cases named
    · simp_all

theorem directory_of_stepTo {piece : Text} (directory : tree.node? location = some .directory)
    (unnamed : (stepTo location piece).2 = false) :
    tree.node? (stepTo location piece).1 = some .directory := by
  unfold stepTo at unnamed ⊢
  split
  · exact directory
  · split
    · rcases List.eq_nil_or_concat location with rfl | ⟨holder, name, rfl⟩
      · exact directory
      · rw [List.concat_eq_append] at directory ⊢
        rw [List.dropLast_concat]
        exact node?_parent directory
    · simp_all

theorem makeAlong_eq_self
    (followed : tree.follow location (pieces.filter (!Path.isVoid ·)) = .ok place)
    (directory : tree.node? place = some .directory) :
    tree.makeAlong location pieces = (tree, .ok ()) := by
  have starts := checkDirectory_eq_ok_iff.mpr (directory_of_follow followed directory)
  induction pieces generalizing location with
  | nil => rw [makeAlong, starts]
  | cons piece rest inductionHypothesis =>
      rw [makeAlong, starts]
      simp only
      cases void : Path.isVoid piece with
      | true =>
          rw [List.filter_cons_of_neg (by simp [void])] at followed
          rw [stepTo_of_isVoid location void]
          exact inductionHypothesis followed starts
      | false =>
          rw [List.filter_cons_of_pos (by simp [void])] at followed
          obtain ⟨-, present, behind⟩ := follow_cons_eq_ok_iff.mp followed
          have next := directory_of_follow behind directory
          have starts := checkDirectory_eq_ok_iff.mpr next
          cases named : (stepTo location piece).2 with
          | false =>
              have step : stepTo location piece = ((stepTo location piece).1, false) :=
                Prod.ext rfl named
              rw [step]
              exact inductionHypothesis behind starts
          | true =>
              have inside : (stepTo location piece).1 = location ++ [piece] :=
                stepTo_of_named named
              have step : stepTo location piece = (location ++ [piece], true) :=
                Prod.ext inside named
              rw [inside] at behind next starts
              rw [step]
              simp only [makeDirectory_eq_self next]
              exact inductionHypothesis behind starts

end FileTree

namespace Workspace

variable {workspace : Workspace} {path : Path} {content : Text}

theorem exists_holder {file : FileContent} (found : workspace.node? path = some (.file file)) :
    ∃ holder, Path.IsName path.lastName ∧
      workspace.tree.follow (workspace.start path).1
        (Text.splitOn '/' path.text).dropLast = .ok holder ∧
      workspace.tree.node? holder = some .directory ∧
      workspace.tree.node? (holder ++ [path.lastName]) = some (.file file) := by
  obtain ⟨located, present⟩ := node?_eq_some_iff.mp found
  obtain ⟨-, followed⟩ := locate_eq_ok_iff.mp located
  rw [Text.splitOn_eq_append_lastPiece] at followed
  obtain ⟨holder, front, last⟩ := FileTree.follow_append_eq_ok_iff.mp followed
  obtain ⟨directory, -, ended⟩ := FileTree.follow_cons_eq_ok_iff.mp last
  have place : workspace.placeOf path = (FileTree.stepTo holder path.lastName).1 :=
    (Except.ok.inj ended).symm
  rw [place] at present
  cases named : (FileTree.stepTo holder path.lastName).2 with
  | false =>
      rw [FileTree.directory_of_stepTo directory named] at present
      cases present
  | true =>
      rw [FileTree.stepTo_of_named named] at present
      exact ⟨holder, FileTree.isName_of_stepTo path.slash_notMem_lastName named, front, directory,
        present⟩

theorem write_eq_self (read : workspace.readText path = .ok content) :
    workspace.write path (.text content) = .ok workspace := by
  obtain ⟨holder, named, followed, directory, present⟩ :=
    exists_holder (readText_eq_ok_iff.mp read)
  have located : workspace.locateNew path = .ok (holder, path.lastName) := by
    have checked := FileTree.checkDirectory_eq_ok_iff.mpr directory
    have steps : (FileTree.stepTo holder path.lastName).2 = true := by
      rw [FileTree.stepTo_of_isName holder named]
    unfold locateNew
    simp only [start] at followed ⊢
    simp only [followed, checked, bind, Except.bind]
    exact if_pos steps
  unfold write
  rw [located]
  simp only [bind, Except.bind, FileTree.write_eq_self present]

theorem makeDirectories_parent_eq_self (read : workspace.readText path = .ok content) :
    workspace.makeDirectories path.parent = (workspace, .ok ()) := by
  obtain ⟨holder, named, followed, directory, -⟩ := exists_holder (readText_eq_ok_iff.mp read)
  have reached : workspace.tree.follow (workspace.start path).1
      ((Text.splitOn '/' path.parent.text).filter (!Path.isVoid ·)) = .ok holder := by
    rw [← Path.steps, Path.steps_parent, Path.steps_eq_concat named, List.dropLast_concat]
    exact FileTree.follow_filter followed
  have starts : (workspace.start path.parent).1 = (workspace.start path).1 := by
    rw [start, start, Path.isAbsolute_parent]
  have along : workspace.tree.makeAlong (workspace.start path.parent).1
      (Text.splitOn '/' path.parent.text) = (workspace.tree, .ok ()) := by
    rw [starts]
    exact FileTree.makeAlong_eq_self reached directory
  unfold makeDirectories
  simp only [start] at along ⊢
  rw [along]

end Workspace

end StyleMacros
