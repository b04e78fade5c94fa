import StyleMacros.Proofs.Files.Rewriting

/-!
# Spellings of one path

Paths with the same components lead to the same place, and so do what is joined to them and their
parents. What is void between the names of a path matters only where it follows a file, so
directories are made and files are written in the same way under all spellings.
-/

set_option autoImplicit false

namespace StyleMacros

/-! ## What the components tell -/

namespace PathComponent

/-- Whether a component can only stand at the beginning. -/
def isMark : PathComponent → Bool
  | .root => true
  | .current => true
  | _ => false

end PathComponent

namespace Path

variable {path left right : Path} {name : Text}

theorem isMark_of_mem_leading {component : PathComponent} (member : component ∈ path.leading) :
    component.isMark = true := by
  unfold leading at member
  split at member
  · rw [List.mem_singleton.mp member]
    rfl
  · split at member
    · rw [List.mem_singleton.mp member]
      rfl
    · cases member

theorem isMark_componentOfPiece (piece : Text) : (componentOfPiece piece).isMark = false := by
  unfold componentOfPiece
  split <;> rfl

theorem takeWhile_components (path : Path) :
    path.components.takeWhile PathComponent.isMark = path.leading := by
  rw [components_eq_leading, List.takeWhile_append_of_pos fun _ => isMark_of_mem_leading]
  cases path.steps with
  | nil => exact List.append_nil _
  | cons first others =>
      rw [List.map_cons, List.takeWhile_cons_of_neg (by simp [isMark_componentOfPiece]),
        List.append_nil]

theorem leading_congr (same : left.components = right.components) :
    left.leading = right.leading := by
  rw [← takeWhile_components, ← takeWhile_components, same]

theorem splitLead_eq_of_leading (path : Path) :
    path.splitLead.1 =
      if path.leading = [.root] then ['/'] else if path.leading = [.current] then ['.'] else [] := by
  unfold leading
  rcases splitLead_cases path with ⟨rest, lead⟩ | lead | ⟨rest, lead⟩ | ⟨lead, -⟩ <;> simp [lead]

theorem splitLead_congr (same : left.components = right.components) :
    left.splitLead.1 = right.splitLead.1 := by
  rw [splitLead_eq_of_leading, splitLead_eq_of_leading right, leading_congr same]

theorem isAbsolute_congr (same : left.components = right.components) :
    left.isAbsolute = right.isAbsolute := by
  rw [isAbsolute_eq, isAbsolute_eq, splitLead_congr same]

theorem steps_congr (same : left.components = right.components) : left.steps = right.steps := by
  have marks := leading_congr same
  rw [components_eq_leading, components_eq_leading, marks] at same
  have injective : Function.Injective componentOfPiece := fun _ _ => componentOfPiece_injective
  exact List.map_injective_iff.mpr injective (List.append_cancel_left same)

/-- A path is made by the mark at its beginning and the pieces that count. -/
theorem components_eq_of_parts (mark : left.splitLead.1 = right.splitLead.1)
    (pieces : left.steps = right.steps) : left.components = right.components := by
  rw [components_eq_leading, components_eq_leading right, leading, leading, mark, pieces]

theorem parent_components_congr (same : left.components = right.components) :
    left.parent.components = right.parent.components := by
  refine components_eq_of_parts ?_ ?_
  · rw [splitLead_parent, splitLead_parent, splitLead_congr same]
  · rw [steps_parent, steps_parent, steps_congr same]

theorem text_eq_nil_congr (same : left.components = right.components) :
    left.text = [] ↔ right.text = [] := by
  rw [← components_eq_nil_iff, ← components_eq_nil_iff, same]

/-! ## Joined texts -/

theorem exists_splitOn_join (path : Path) (relative : name.head? ≠ some '/') :
    ∃ front, Text.splitOn '/' (path.join name).text = front ++ Text.splitOn '/' name ∧
      front.filter (!isVoid ·) = path.steps := by
  have behind : ([[]] : List Text).filter (!isVoid ·) = [] := rfl
  rw [join, if_neg relative]
  by_cases empty : path.text = []
  · refine ⟨[], ?_, ?_⟩
    · rw [empty]
      rfl
    · rw [steps, empty]
      rfl
  · by_cases closed : path.text.getLast? = some '/'
    · obtain ⟨front, same⟩ := List.getLast?_eq_some_iff.mp closed
      refine ⟨Text.splitOn '/' front, ?_, ?_⟩
      · simp only [closed, decide_true, Bool.or_true, if_true]
        rw [same, List.append_assoc, List.singleton_append, Text.splitOn_append_separator]
      · rw [steps, same, Text.splitOn_concat, List.filter_append, behind, List.append_nil]
    · refine ⟨Text.splitOn '/' path.text, ?_, rfl⟩
      simp only [empty, closed, decide_false, Bool.or_self, Bool.false_eq_true, if_false]
      rw [Text.splitOn_append_separator]

theorem steps_join_of_relative (path : Path) (relative : name.head? ≠ some '/') :
    (path.join name).steps = path.steps ++ (Text.splitOn '/' name).filter (!isVoid ·) := by
  obtain ⟨front, pieces, kept⟩ := exists_splitOn_join path relative
  rw [steps, pieces, List.filter_append, kept]

theorem splitLead_join_of_ne_nil (nonempty : path.text ≠ []) (relative : name.head? ≠ some '/') :
    (path.join name).splitLead.1 = path.splitLead.1 := by
  rw [join, if_neg relative]
  by_cases closed : path.text.getLast? = some '/'
  · simp only [closed, decide_true, Bool.or_true, if_true]
    exact splitLead_append nonempty (.inl closed)
  · simp only [nonempty, closed, decide_false, Bool.or_self, Bool.false_eq_true, if_false]
    exact splitLead_append nonempty (.inr rfl)

theorem join_components_congr (same : left.components = right.components)
    (relative : name.head? ≠ some '/') :
    (left.join name).components = (right.join name).components := by
  by_cases empty : left.text = []
  · have other := (text_eq_nil_congr same).mp empty
    rw [join, join, if_neg relative, if_neg relative, empty, other]
  · have other := (text_eq_nil_congr same).not.mp empty
    refine components_eq_of_parts ?_ ?_
    · rw [splitLead_join_of_ne_nil empty relative, splitLead_join_of_ne_nil other relative,
        splitLead_congr same]
    · rw [steps_join_of_relative left relative, steps_join_of_relative right relative,
        steps_congr same]

end Path

/-! ## Following paths -/

namespace FileTree

variable {tree : FileTree} {location : Location}

/-- Where the pieces of a path lead, if that is a directory. -/
def enter (tree : FileTree) (location : Location) (pieces : List Text) :
    Except FileFault Location := do
  let place ← tree.follow location pieces
  tree.checkDirectory place
  return place

theorem enter_cons (piece : Text) (rest : List Text) :
    tree.enter location (piece :: rest) = (tree.checkDirectory location).bind fun _ =>
      if (tree.node? (stepTo location piece).1).isNone then .error .notFound
      else tree.enter (stepTo location piece).1 rest := by
  unfold enter
  rw [follow]
  cases tree.checkDirectory location with
  | error fault => rfl
  | ok done =>
      cases found : tree.node? (stepTo location piece).1 with
      | none => simp [bind, Except.bind, found, throw, throwThe, MonadExceptOf.throw]
      | some node => simp [bind, Except.bind, found]

theorem enter_eq_bind (pieces : List Text) :
    tree.enter location pieces =
      (tree.checkDirectory location).bind fun _ => tree.enter location pieces := by
  cases checked : tree.checkDirectory location with
  | ok done => rfl
  | error fault =>
      cases pieces with
      | nil => simp [enter, follow, checked, bind, Except.bind]
      | cons piece rest => simp [enter_cons, checked, Except.bind]

/-- Void pieces do not matter on the way to a directory. -/
theorem enter_filter (tree : FileTree) (location : Location) (pieces : List Text) :
    tree.enter location (pieces.filter (!Path.isVoid ·)) = tree.enter location pieces := by
  induction pieces generalizing location with
  | nil => rfl
  | cons piece rest inductionHypothesis =>
      cases void : Path.isVoid piece with
      | false =>
          rw [List.filter_cons_of_pos (by simp [void]), enter_cons, enter_cons,
            inductionHypothesis]
      | true =>
          rw [List.filter_cons_of_neg (by simp [void]), inductionHypothesis, enter_cons,
            stepTo_of_isVoid location void, enter_eq_bind]
          cases checked : tree.checkDirectory location with
          | error fault => rfl
          | ok done =>
              have present := checkDirectory_eq_ok_iff.mp checked
              simp [Except.bind, present]

theorem makeAlong_filter (tree : FileTree) (location : Location) (pieces : List Text) :
    tree.makeAlong location (pieces.filter (!Path.isVoid ·)) = tree.makeAlong location pieces := by
  induction pieces generalizing tree location with
  | nil => rfl
  | cons piece rest inductionHypothesis =>
      cases void : Path.isVoid piece with
      | false =>
          rw [List.filter_cons_of_pos (by simp [void])]
          simp only [makeAlong, inductionHypothesis]
      | true =>
          rw [List.filter_cons_of_neg (by simp [void]), inductionHypothesis, makeAlong,
            stepTo_of_isVoid location void]
          cases checked : tree.checkDirectory location with
          | error fault =>
              cases rest with
              | nil => rw [makeAlong, checked]
              | cons second others => rw [makeAlong, checked]
          | ok done => rfl

end FileTree

/-! ## Places, directories and files -/

namespace Workspace

variable {workspace : Workspace} {left right : Path} {name : Text}

theorem start_congr (same : left.components = right.components) :
    (workspace.start left).1 = (workspace.start right).1 := by
  rw [start, start, Path.isAbsolute_congr same]

theorem placeOf_congr (same : left.components = right.components) :
    workspace.placeOf left = workspace.placeOf right := by
  rw [placeOf, placeOf, ← FileTree.reach_filter, ← FileTree.reach_filter _ (workspace.start right).2,
    start_congr same]
  change FileTree.reach _ left.steps = FileTree.reach _ right.steps
  rw [Path.steps_congr same]

/-- A file is found and read under all spellings that lead to a file. -/
theorem readText_congr (same : left.components = right.components)
    (file : workspace.isFile left) (other : workspace.isFile right) :
    workspace.readText left = workspace.readText right := by
  obtain ⟨content, found⟩ := isFile_iff.mp file
  obtain ⟨otherContent, otherFound⟩ := isFile_iff.mp other
  unfold readText
  rw [(node?_eq_some_iff.mp found).1, (node?_eq_some_iff.mp otherFound).1, placeOf_congr same]

theorem makeDirectories_congr (same : left.components = right.components) :
    workspace.makeDirectories left = workspace.makeDirectories right := by
  have along : workspace.tree.makeAlong (workspace.start left).1 (Text.splitOn '/' left.text) =
      workspace.tree.makeAlong (workspace.start right).1 (Text.splitOn '/' right.text) := by
    rw [start_congr same, ← FileTree.makeAlong_filter,
      ← FileTree.makeAlong_filter _ _ (Text.splitOn '/' right.text)]
    exact congrArg _ (Path.steps_congr same)
  unfold makeDirectories
  simp only [start] at along ⊢
  rw [along]

theorem locateNew_eq (path : Path) :
    workspace.locateNew path =
      (workspace.tree.enter (workspace.start path).1 (Text.splitOn '/' path.text).dropLast).bind
        fun holder => if (FileTree.stepTo holder path.lastName).2 then .ok (holder, path.lastName)
          else .error .isADirectory := by
  unfold locateNew FileTree.enter
  simp only [start, bind, Except.bind]
  cases workspace.tree.follow (if path.isAbsolute then [] else workspace.current)
      (Text.splitOn '/' path.text).dropLast with
  | error fault => rfl
  | ok holder =>
      simp only
      cases workspace.tree.checkDirectory holder <;> rfl

theorem write_join_congr (same : left.components = right.components)
    (relative : name.head? ≠ some '/') (content : FileContent) :
    workspace.write (left.join name) content = workspace.write (right.join name) content := by
  obtain ⟨front, pieces, kept⟩ := Path.exists_splitOn_join left relative
  obtain ⟨otherFront, otherPieces, otherKept⟩ := Path.exists_splitOn_join right relative
  have nonempty := Text.splitOn_ne_nil '/' name
  have last {front : List Text} {path : Path} (pieces : Text.splitOn '/' path.text =
      front ++ Text.splitOn '/' name) : path.lastName = Text.lastPiece '/' name := by
    rw [Path.lastName, Text.lastPiece, pieces, Text.splitOn_eq_append_lastPiece '/' name,
      ← List.append_assoc, List.getLastD_concat]
  have holders : (Text.splitOn '/' (left.join name).text).dropLast.filter (!Path.isVoid ·) =
      (Text.splitOn '/' (right.join name).text).dropLast.filter (!Path.isVoid ·) := by
    rw [pieces, otherPieces, List.dropLast_append_of_ne_nil nonempty,
      List.dropLast_append_of_ne_nil nonempty, List.filter_append, List.filter_append, kept,
      otherKept, Path.steps_congr same]
  have located : workspace.locateNew (left.join name) = workspace.locateNew (right.join name) := by
    rw [locateNew_eq, locateNew_eq, ← FileTree.enter_filter, holders, FileTree.enter_filter,
      start_congr (Path.join_components_congr same relative), last pieces, last otherPieces]
  unfold write
  rw [located]

end Workspace

end StyleMacros
