import StyleMacros.Proofs.Files.Names

/-!
# Components of built paths

A path is a mark for its beginning with the pieces behind it that count. A name that is joined to
it becomes the last piece, its parent is without the last piece, and both leave the mark alone.
So a path with a file name has the components of its parent and behind them the name.
-/

set_option autoImplicit false

namespace StyleMacros.Path

variable {path : Path} {name piece other : Text}

/-! ## The mark at the beginning -/

def leading (path : Path) : List PathComponent :=
  if path.splitLead.1 = ['/'] then [.root] else if path.splitLead.1 = ['.'] then [.current] else []

theorem components_eq_leading (path : Path) :
    path.components = path.leading ++ path.steps.map componentOfPiece := by
  rw [← filter_splitLead]
  rfl

theorem isAbsolute_eq (path : Path) : path.isAbsolute = decide (path.splitLead.1 = ['/']) := by
  unfold isAbsolute splitLead
  congr 1
  split
  · rename_i rest same
    simp [same]
  · rename_i same
    simp [same]
  · rename_i rest same
    simp [same]
  · rename_i noSlash _ _
    simp only [List.head?_eq_some_iff, eq_iff_iff]
    exact iff_of_false (fun ⟨rest, same⟩ => noSlash rest same) (by simp)

theorem splitLead_cases (path : Path) :
    (∃ rest, path.splitLead = (['/'], rest)) ∨ path.splitLead = (['.'], []) ∨
      (∃ rest, path.splitLead = (['.'], '/' :: rest)) ∨
      path.splitLead = ([], path.text) ∧
        ∀ first others, Text.splitOn '/' path.text = first :: others →
          isVoid first = false ∨ first = [] ∧ others = [] := by
  unfold splitLead
  split
  · exact .inl ⟨_, rfl⟩
  · exact .inr (.inl rfl)
  · exact .inr (.inr (.inl ⟨_, rfl⟩))
  · rename_i noSlash noDot noDotSlash
    refine .inr (.inr (.inr ⟨rfl, fun first others pieces => ?_⟩))
    have whole : Text.join ['/'] (first :: others) = path.text := by
      rw [← pieces, Text.join_splitOn]
    cases void : isVoid first with
    | false => exact .inl rfl
    | true =>
        have mark : first = [] ∨ first = ['.'] := by simpa [isVoid] using void
        cases others with
        | nil =>
            rw [Text.join_singleton] at whole
            exact .inr ⟨mark.resolve_right fun dot => noDot (whole.symm.trans dot), rfl⟩
        | cons second others =>
            rw [Text.join_cons_cons] at whole
            rcases mark with rfl | rfl
            · exact absurd whole.symm (noSlash _)
            · exact absurd whole.symm (noDotSlash _)

theorem splitLead_of_counts {first : Text} {others : List Text}
    (pieces : Text.splitOn '/' path.text = first :: others) (counts : isVoid first = false) :
    path.splitLead = ([], path.text) := by
  unfold splitLead
  split
  · rename_i rest same
    rw [same, Text.splitOn, if_pos rfl] at pieces
    cases pieces
    cases counts
  · rename_i same
    rw [same, Text.splitOn_of_notMem (by decide)] at pieces
    cases pieces
    cases counts
  · rename_i rest same
    have dot : Text.splitOn '/' ('.' :: '/' :: rest) = ['.'] :: Text.splitOn '/' rest :=
      Text.splitOn_append_separator ['.'] rest
    rw [same, dot] at pieces
    cases pieces
    cases counts
  · rfl

theorem componentOfPiece_injective (same : componentOfPiece piece = componentOfPiece other) :
    piece = other := by
  unfold componentOfPiece at same
  split at same
  · rename_i parent
    split at same
    · rename_i alike
      rw [parent, alike]
    · cases same
  · split at same
    · cases same
    · exact PathComponent.name.inj same

theorem components_eq_nil_iff : path.components = [] ↔ path.text = [] := by
  constructor
  · intro empty
    rw [components_eq_leading, List.append_eq_nil_iff, List.map_eq_nil_iff] at empty
    obtain ⟨unmarked, none⟩ := empty
    rcases splitLead_cases path with ⟨rest, lead⟩ | lead | ⟨rest, lead⟩ | ⟨lead, begins⟩
    · rw [leading, lead] at unmarked
      cases unmarked
    · rw [leading, lead] at unmarked
      cases unmarked
    · rw [leading, lead] at unmarked
      cases unmarked
    · cases pieces : Text.splitOn '/' path.text with
      | nil => exact absurd pieces (Text.splitOn_ne_nil '/' path.text)
      | cons first others =>
          rcases begins first others pieces with counts | ⟨rfl, rfl⟩
          · rw [steps, pieces, List.filter_cons_of_pos (by simp [counts])] at none
            cases none
          · rw [← Text.join_splitOn '/' path.text, pieces, Text.join_singleton]
  · intro empty
    obtain ⟨text⟩ := path
    cases empty
    rfl

/-! ## Joined names -/

theorem splitLead_append {text back : Text} (nonempty : text ≠ [])
    (apart : text.getLast? = some '/' ∨ back.head? = some '/') :
    (splitLead ⟨text ++ back⟩).1 = (splitLead ⟨text⟩).1 := by
  match text with
  | [] => exact absurd rfl nonempty
  | [mark] =>
      unfold splitLead
      rw [List.singleton_append]
      rcases apart with slash | slash
      · cases Option.some_inj.mp slash
        rfl
      · obtain ⟨rest, rfl⟩ := List.head?_eq_some_iff.mp slash
        split <;> split <;> simp_all
  | first :: second :: rest =>
      unfold splitLead
      rw [List.cons_append, List.cons_append]
      split <;> split <;> simp_all

theorem join_of_text_eq_nil (empty : path.text = []) (flat : '/' ∉ name) :
    path.join name = ⟨name⟩ := by
  rw [join, if_neg fun head => flat (List.mem_of_head? head), empty]
  rfl

theorem splitLead_join (named : IsName name) :
    (path.join name).splitLead.1 = path.splitLead.1 := by
  by_cases empty : path.text = []
  · rw [join_of_text_eq_nil empty named.2.2,
      splitLead_of_counts (Text.splitOn_of_notMem named.2.2) named.1]
    unfold splitLead
    rw [empty]
  · rw [join, if_neg named.head?_ne]
    by_cases closed : path.text.getLast? = some '/'
    · simp only [closed, decide_true, Bool.or_true, if_true]
      exact splitLead_append empty (.inl closed)
    · simp only [empty, closed, decide_false, Bool.or_self, Bool.false_eq_true, if_false]
      exact splitLead_append empty (.inr rfl)

theorem isAbsolute_join (named : IsName name) :
    (path.join name).isAbsolute = path.isAbsolute := by
  rw [isAbsolute_eq, isAbsolute_eq, splitLead_join named]

theorem steps_join (named : IsName name) : (path.join name).steps = path.steps ++ [name] := by
  by_cases empty : path.text = []
  · rw [join_of_text_eq_nil empty named.2.2, steps, steps, empty, Text.splitOn_of_notMem named.2.2,
      named.filter_singleton]
    rfl
  · rw [steps, splitOn_join empty named]
    split
    · rename_i closed
      obtain ⟨front, same⟩ := List.getLast?_eq_some_iff.mp closed
      have behind : ([[]] : List Text).filter (!isVoid ·) = [] := rfl
      rw [steps, same, Text.splitOn_concat, List.dropLast_concat, List.filter_append,
        List.filter_append, named.filter_singleton, behind, List.append_nil]
    · rw [List.filter_append, named.filter_singleton, steps]

theorem components_join (named : IsName name) :
    (path.join name).components = path.components ++ [.name name] := by
  have last : componentOfPiece name = .name name := if_neg named.2.1
  rw [components_eq_leading, components_eq_leading, leading, leading, splitLead_join named,
    steps_join named, List.map_append, List.map_singleton, last, List.append_assoc]

/-! ## Parents -/

/-- The pieces of a path that stay in its parent. -/
def keptPieces (pieces : List Text) : List Text :=
  (((pieces.reverse.dropWhile isVoid).drop 1).dropWhile isVoid).reverse

theorem parent_eq (path : Path) :
    path.parent =
      ⟨path.splitLead.1 ++ Text.join ['/'] (keptPieces (Text.splitOn '/' path.splitLead.2))⟩ :=
  rfl

theorem keptPieces_prefix_self (pieces : List Text) : keptPieces pieces <+: pieces := by
  rw [keptPieces, ← List.reverse_suffix, List.reverse_reverse]
  exact (List.dropWhile_suffix _).trans ((List.drop_suffix 1 _).trans (List.dropWhile_suffix _))

theorem keptPieces_ne_nil_piece (pieces : List Text) : keptPieces pieces ≠ [[]] := by
  intro same
  have head := List.head?_dropWhile_not isVoid ((pieces.reverse.dropWhile isVoid).drop 1)
  rw [← List.getLast?_reverse, ← keptPieces, same] at head
  cases head

theorem filter_dropWhile_isVoid (pieces : List Text) :
    (pieces.dropWhile isVoid).filter (!isVoid ·) = pieces.filter (!isVoid ·) := by
  induction pieces with
  | nil => rfl
  | cons first others inductionHypothesis =>
      cases void : isVoid first with
      | false => rw [List.dropWhile_cons_of_neg (by simp [void])]
      | true =>
          rw [List.dropWhile_cons_of_pos void, inductionHypothesis,
            List.filter_cons_of_neg (by simp [void])]

theorem filter_drop_dropWhile_isVoid (pieces : List Text) :
    ((pieces.dropWhile isVoid).drop 1).filter (!isVoid ·) =
      (pieces.filter (!isVoid ·)).drop 1 := by
  induction pieces with
  | nil => rfl
  | cons first others inductionHypothesis =>
      cases void : isVoid first with
      | false =>
          rw [List.dropWhile_cons_of_neg (by simp [void]),
            List.filter_cons_of_pos (by simp [void])]
          rfl
      | true =>
          rw [List.dropWhile_cons_of_pos void, inductionHypothesis,
            List.filter_cons_of_neg (by simp [void])]

theorem filter_keptPieces (pieces : List Text) :
    (keptPieces pieces).filter (!isVoid ·) = (pieces.filter (!isVoid ·)).dropLast := by
  rw [keptPieces, List.filter_reverse, filter_dropWhile_isVoid, filter_drop_dropWhile_isVoid,
    List.filter_reverse, List.drop_one, List.tail_reverse, List.reverse_reverse]

theorem splitLead_parent (path : Path) :
    path.parent.splitLead = (path.splitLead.1,
      Text.join ['/'] (keptPieces (Text.splitOn '/' path.splitLead.2))) := by
  rw [parent_eq]
  rcases splitLead_cases path with ⟨rest, lead⟩ | lead | ⟨rest, lead⟩ | ⟨lead, begins⟩
  · rw [lead]
    rfl
  · rw [lead]
    rfl
  · have pieces : Text.splitOn '/' ('/' :: rest) = [] :: Text.splitOn '/' rest :=
      Text.splitOn_append_separator [] rest
    have inside := keptPieces_prefix_self (Text.splitOn '/' ('/' :: rest))
    rw [lead]
    simp only
    cases kept : keptPieces (Text.splitOn '/' ('/' :: rest)) with
    | nil => rfl
    | cons first others =>
        rw [kept, pieces, List.cons_prefix_cons] at inside
        obtain ⟨rfl, -⟩ := inside
        cases others with
        | nil => exact absurd kept (keptPieces_ne_nil_piece _)
        | cons second others =>
            rw [Text.join_cons_cons]
            rfl
  · have inside := keptPieces_prefix_self (Text.splitOn '/' path.text)
    rw [lead]
    simp only [List.nil_append]
    cases kept : keptPieces (Text.splitOn '/' path.text) with
    | nil => rfl
    | cons first others =>
        rw [kept] at inside
        have plain : ∀ piece ∈ first :: others, '/' ∉ piece := fun piece member =>
          Text.separator_notMem_of_mem_splitOn (inside.subset member)
        obtain ⟨behind, whole⟩ := inside
        rw [List.cons_append] at whole
        rcases begins _ _ whole.symm with counted | ⟨rfl, none⟩
        · exact splitLead_of_counts (Text.splitOn_join_of_plain plain) counted
        · obtain ⟨rfl, -⟩ := List.append_eq_nil_iff.mp none
          exact absurd kept (keptPieces_ne_nil_piece _)

theorem isAbsolute_parent (path : Path) : path.parent.isAbsolute = path.isAbsolute := by
  rw [isAbsolute_eq, isAbsolute_eq, splitLead_parent]

theorem steps_parent (path : Path) : path.parent.steps = path.steps.dropLast := by
  have apart : (Text.splitOn '/' (Text.join ['/'] (keptPieces
      (Text.splitOn '/' path.splitLead.2)))).filter (!isVoid ·) =
        (keptPieces (Text.splitOn '/' path.splitLead.2)).filter (!isVoid ·) := by
    cases kept : keptPieces (Text.splitOn '/' path.splitLead.2) with
    | nil => rfl
    | cons first others =>
        rw [Text.splitOn_join_of_plain]
        intro piece member
        rw [← kept] at member
        exact Text.separator_notMem_of_mem_splitOn ((keptPieces_prefix_self _).subset member)
  rw [← filter_splitLead, splitLead_parent, apart, filter_keptPieces, filter_splitLead]

/-- A path with a file name is that name inside its parent. -/
theorem components_eq_parent (found : path.fileName? = some name) :
    path.components = path.parent.components ++ [.name name] := by
  obtain ⟨last, other⟩ := fileName?_eq_some_iff.mp found
  obtain ⟨front, parts⟩ := List.getLast?_eq_some_iff.mp last
  have component : componentOfPiece name = .name name := if_neg other
  rw [components_eq_leading, components_eq_leading, leading, leading, splitLead_parent,
    steps_parent, parts, List.dropLast_concat, List.map_append, List.map_singleton, component,
    List.append_assoc]

end StyleMacros.Path
