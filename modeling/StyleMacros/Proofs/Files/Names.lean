import StyleMacros.Command.Sources
import StyleMacros.Proofs.Text.Pieces

/-!
# Names of files

The name of a file is the last piece of its path. Whether a file below a root is a source depends
on the name alone, and no generated file has the name of a source.
-/

set_option autoImplicit false

namespace StyleMacros

namespace Path

variable {path : Path} {name : Text}

/-- What can be the name of something in a directory. -/
def IsName (name : Text) : Prop :=
  isVoid name = false ∧ name ≠ ['.', '.'] ∧ '/' ∉ name

instance (name : Text) : Decidable (IsName name) :=
  inferInstanceAs (Decidable (_ ∧ _ ∧ _))

theorem IsName.ne_nil (named : IsName name) : name ≠ [] := by
  rintro rfl
  cases named.1

theorem IsName.head?_ne (named : IsName name) : name.head? ≠ some '/' := fun head =>
  named.2.2 (List.mem_of_head? head)

theorem IsName.filter_singleton (named : IsName name) : [name].filter (!isVoid ·) = [name] :=
  List.filter_cons_of_pos (by rw [named.1]; rfl)

theorem isVoid_eq_false_of_length {piece : Text} (long : 1 < piece.length) :
    isVoid piece = false := by
  rw [isVoid, Bool.or_eq_false_iff]
  refine ⟨decide_eq_false fun same => ?_, decide_eq_false fun same => ?_⟩
  · rw [same] at long
    exact absurd long (by decide)
  · rw [same] at long
    exact absurd long (by decide)

theorem isName_of_length (long : 2 < name.length) (flat : '/' ∉ name) : IsName name := by
  refine ⟨isVoid_eq_false_of_length (Nat.lt_of_succ_lt long), fun same => ?_, flat⟩
  rw [same] at long
  exact absurd long (by decide)

def lastName (path : Path) : Text :=
  Text.lastPiece '/' path.text

theorem slash_notMem_lastName (path : Path) : '/' ∉ path.lastName :=
  Text.separator_notMem_of_mem_splitOn (Text.lastPiece_mem '/' path.text)

/-! ## Components -/

def steps (path : Path) : List Text :=
  (Text.splitOn '/' path.text).filter (!isVoid ·)

theorem filter_splitLead (path : Path) :
    (Text.splitOn '/' path.splitLead.2).filter (!isVoid ·) = path.steps := by
  obtain ⟨text⟩ := path
  unfold splitLead steps
  split
  · rename_i rest same
    simp only at same
    rw [same, Text.splitOn, if_pos rfl]
    rfl
  · rename_i same
    simp only at same
    rw [same]
    decide
  · rename_i rest same
    simp only at same
    have dot : Text.splitOn '/' ('.' :: '/' :: rest) = ['.'] :: Text.splitOn '/' rest :=
      Text.splitOn_append_separator ['.'] rest
    rw [same, dot, Text.splitOn, if_pos rfl]
    rfl
  · rfl

/-- The components are the pieces that count, behind a mark for the beginning. -/
theorem components_eq (path : Path) :
    ∃ lead : List PathComponent, (∀ component ∈ lead, ∀ text, component ≠ .name text) ∧
      path.components = lead ++ path.steps.map componentOfPiece := by
  refine ⟨if path.splitLead.1 = ['/'] then [.root]
    else if path.splitLead.1 = ['.'] then [.current] else [], ?_, by rw [← filter_splitLead]; rfl⟩
  intro component member text same
  subst same
  split at member
  · cases List.mem_singleton.mp member
  · split at member
    · cases List.mem_singleton.mp member
    · cases member

theorem componentOfPiece_eq_name {piece : Text} (same : componentOfPiece piece = .name name) :
    piece = name ∧ name ≠ ['.', '.'] := by
  unfold componentOfPiece at same
  split at same
  · cases same
  · rename_i other
    cases same
    exact ⟨rfl, other⟩

theorem fileName?_eq_some_iff :
    path.fileName? = some name ↔ path.steps.getLast? = some name ∧ name ≠ ['.', '.'] := by
  obtain ⟨lead, unnamed, same⟩ := components_eq path
  rw [fileName?, same, List.getLast?_append, List.getLast?_map]
  cases last : path.steps.getLast? with
  | none =>
      have absent : ∀ text, lead.getLast? ≠ some (.name text) := fun text found =>
        unnamed _ (List.mem_of_getLast? found) text rfl
      simp only [Option.map_none, Option.none_or, reduceCtorEq, false_and]
  | some piece =>
      simp only [Option.map_some, Option.some_or, Option.some_inj]
      constructor
      · intro found
        split at found
        · rename_i text component
          cases found
          exact componentOfPiece_eq_name (Option.some_inj.mp component)
        · cases found
      · rintro ⟨rfl, other⟩
        simp [componentOfPiece, other]

theorem fileName?_congr {other : Path} (same : path.components = other.components) :
    path.fileName? = other.fileName? := by
  rw [fileName?, fileName?, same]

theorem steps_eq_concat (named : IsName path.lastName) :
    path.steps =
      (Text.splitOn '/' path.text).dropLast.filter (!isVoid ·) ++ [path.lastName] := by
  rw [steps, ← named.filter_singleton, ← List.filter_append, lastName,
    ← Text.splitOn_eq_append_lastPiece]

theorem fileName?_eq_lastName (named : IsName path.lastName) :
    path.fileName? = some path.lastName := by
  refine fileName?_eq_some_iff.mpr ⟨?_, named.2.1⟩
  rw [steps_eq_concat named, List.getLast?_concat]

/-! ## Joined paths -/

theorem exists_join_text (path : Path) (other : Text) :
    ∃ front, (path.join other).text = front ++ other := by
  unfold join
  split
  · exact ⟨[], rfl⟩
  · split
    · exact ⟨path.text, rfl⟩
    · exact ⟨path.text ++ ['/'], by simp⟩

theorem exists_withFileName_text (path : Path) (other : Text) :
    ∃ front, (path.withFileName other).text = front ++ other := by
  unfold withFileName
  split <;> exact exists_join_text ..

theorem splitOn_join (nonempty : path.text ≠ []) (named : IsName name) :
    Text.splitOn '/' (path.join name).text =
      if path.text.getLast? = some '/' then (Text.splitOn '/' path.text).dropLast ++ [name]
      else Text.splitOn '/' path.text ++ [name] := by
  rw [join, if_neg named.head?_ne]
  by_cases closed : path.text.getLast? = some '/'
  · obtain ⟨front, same⟩ := List.getLast?_eq_some_iff.mp closed
    have closing : (decide (path.text = []) || decide (path.text.getLast? = some '/')) = true := by
      simp [closed]
    rw [if_pos closing, if_pos closed, same, Text.splitOn_concat, List.dropLast_concat,
      List.append_assoc, List.singleton_append, Text.splitOn_append_separator,
      Text.splitOn_of_notMem named.2.2]
  · simp only [nonempty, closed, decide_false, Bool.or_false, Bool.false_eq_true, if_false]
    rw [Text.splitOn_append_separator, Text.splitOn_of_notMem named.2.2]

theorem lastName_join (named : IsName name) : (path.join name).lastName = name := by
  by_cases nonempty : path.text = []
  · rw [lastName, join, if_neg named.head?_ne]
    simp only [nonempty, decide_true, Bool.true_or, if_true, List.nil_append]
    exact Text.lastPiece_of_notMem named.2.2
  · rw [lastName, Text.lastPiece, splitOn_join nonempty named]
    split <;> simp

end Path

/-! ## Names of sources -/

namespace Settings

variable {settings : Settings} {path : Path} {name : Text}

def isSourceName (settings : Settings) (name : Text) : Bool :=
  (Path.splitName name).2 = some settings.fileExtension &&
    !(Path.splitName name).1.endsWith settings.outputSuffix

theorem isSource_eq (found : path.fileName? = some name) :
    settings.isSource path = settings.isSourceName name := by
  rw [isSource, isGenerated, Path.extension?, Path.fileStem?, found]
  rfl

theorem exists_fileName_of_isSource (source : settings.isSource path) :
    ∃ name, path.fileName? = some name ∧ settings.isSourceName name := by
  cases found : path.fileName? with
  | none => simp [isSource, Path.extension?, found] at source
  | some name => exact ⟨name, rfl, (isSource_eq found).symm.trans source⟩

theorem exists_outputPath_text (settings : Settings) (source : Path) (outDir : Option Path) :
    ∃ front, (settings.outputPath source outDir).text =
      front ++ (settings.outputSuffix ++ '.' :: settings.fileExtension) := by
  have named : ∃ stem, settings.outputName (source.fileStem?.getD []) =
      stem ++ (settings.outputSuffix ++ '.' :: settings.fileExtension) :=
    ⟨_, by rw [outputName, List.append_assoc]⟩
  obtain ⟨stem, named⟩ := named
  unfold outputPath
  rw [named]
  cases outDir with
  | none =>
      obtain ⟨front, same⟩ := Path.exists_withFileName_text source
        (stem ++ (settings.outputSuffix ++ '.' :: settings.fileExtension))
      exact ⟨front ++ stem, by rw [same, List.append_assoc]⟩
  | some dir =>
      obtain ⟨front, same⟩ := Path.exists_join_text dir
        (stem ++ (settings.outputSuffix ++ '.' :: settings.fileExtension))
      exact ⟨front ++ stem, by rw [same, List.append_assoc]⟩

/-- What stands behind a dot in a name is one piece of it. -/
theorem mem_splitOn_of_splitName {extension_ : Text}
    (found : (Path.splitName name).2 = some extension_) :
    extension_ ∈ Text.splitOn '.' name := by
  unfold Path.splitName at found
  split at found
  · rename_i last first others pieces
    simp only at found
    split at found
    · cases found
    · cases found
      rw [← List.mem_reverse, pieces]
      exact List.mem_cons_self
  · cases found

theorem splitName_append {front back : Text} (nonempty : front ≠ []) (plain : '.' ∉ back) :
    Path.splitName (front ++ '.' :: back) = (front, some back) := by
  unfold Path.splitName
  rw [Text.splitOn_append_separator, Text.splitOn_of_notMem plain, List.reverse_append,
    List.reverse_singleton, List.singleton_append]
  cases pieces : (Text.splitOn '.' front).reverse with
  | nil => exact absurd (List.reverse_eq_nil_iff.mp pieces) (Text.splitOn_ne_nil '.' front)
  | cons first others =>
      have joined : Text.join ['.'] (first :: others).reverse = front := by
        rw [← pieces, List.reverse_reverse, Text.join_splitOn]
      simp only [joined, nonempty, if_false]

/-- No generated file has the name of a source. -/
theorem isSourceName_lastName_outputPath (suffixed : settings.outputSuffix ≠ [])
    (flat : '/' ∉ settings.outputSuffix) (source : Path) (outDir : Option Path) :
    settings.isSourceName (settings.outputPath source outDir).lastName = false := by
  obtain ⟨front, same⟩ := exists_outputPath_text settings source outDir
  rw [Path.lastName, same]
  -- An extension that is found in a name has neither a dot nor a slash.
  have other {name : Text} (mark : Char) (inside : mark ∈ settings.fileExtension)
      (absent : ∀ piece ∈ Text.splitOn '.' name, mark ∉ piece) :
      settings.isSourceName name = false := by
    rw [isSourceName, Bool.and_eq_false_iff]
    refine .inl (decide_eq_false fun found => ?_)
    exact absent _ (mem_splitOn_of_splitName found) inside
  by_cases slash : '/' ∈ settings.fileExtension
  · refine other '/' slash fun piece member inside => ?_
    exact Text.separator_notMem_of_mem_splitOn (Text.lastPiece_mem '/' _)
      (Text.mem_of_mem_splitOn member inside)
  · have plain : '/' ∉ settings.outputSuffix ++ '.' :: settings.fileExtension := by
      simp [flat, slash]
    rw [Text.lastPiece_append plain, ← List.append_assoc]
    by_cases dot : '.' ∈ settings.fileExtension
    · exact other '.' dot fun piece member => Text.separator_notMem_of_mem_splitOn member
    · have nonempty : Text.lastPiece '/' front ++ settings.outputSuffix ≠ [] := by
        simp [suffixed]
      rw [isSourceName, splitName_append nonempty dot]
      simp [Text.endsWith]

end Settings

end StyleMacros
