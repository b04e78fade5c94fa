import Mathlib.Data.Char
import Mathlib.Data.List.Lex
import Mathlib.Data.List.Sort
import Mathlib.Data.Prod.Lex
import StyleMacros.Command.Sources

/-!
# Sorted paths

The order of paths is the lexicographic order of their components. A sorted list holds each of its
paths once, up to the spelling, so it is made by what it holds, and not by the order in which that
was found.
-/

set_option autoImplicit false

namespace StyleMacros

/-! ## The order of paths -/

namespace PathComponent

variable {left right : PathComponent}

/-- The kind of a component, and its name if it has one. -/
def key : PathComponent → ℕ ×ₗ Text
  | .root => toLex (0, [])
  | .current => toLex (1, [])
  | .parent => toLex (2, [])
  | .name text => toLex (3, text)

theorem key_injective : Function.Injective key := by
  intro left right same
  cases left <;> cases right <;> simp_all [key]

theorem lt_iff : left.lt right = true ↔ left.key < right.key := by
  cases left <;> cases right <;> simp [lt, key, Prod.Lex.toLex_lt_toLex]

end PathComponent

namespace Path

variable {path left right : Path} {paths others : List Path}

def key (path : Path) : List (ℕ ×ₗ Text) :=
  path.components.map PathComponent.key

theorem key_eq_iff : left.key = right.key ↔ left.components = right.components :=
  (List.map_injective_iff.mpr PathComponent.key_injective).eq_iff

theorem same_iff : left.same right = true ↔ left.key = right.key := by
  rw [same, decide_eq_true_iff, key_eq_iff]

theorem ltComponents_iff {lefts rights : List PathComponent} :
    ltComponents lefts rights = true ↔
      lefts.map PathComponent.key < rights.map PathComponent.key := by
  induction lefts generalizing rights with
  | nil => cases rights <;> simp [ltComponents]
  | cons left lefts inductionHypothesis =>
      cases rights with
      | nil => simp [ltComponents]
      | cons right rights =>
          rw [ltComponents, List.map_cons, List.map_cons, List.cons_lt_cons_iff, Bool.or_eq_true,
            Bool.and_eq_true, inductionHypothesis, PathComponent.lt_iff, Bool.not_eq_true',
            ← Bool.not_eq_true, PathComponent.lt_iff]
          rcases lt_trichotomy left.key right.key with less | same | greater
          · simp [less]
          · simp [same]
          · simp [greater, greater.ne']

theorem lt_iff : left.lt right = true ↔ left.key < right.key :=
  ltComponents_iff

/-! ## Sorting -/

theorem mem_of_mem_dropRepeats (paths : List Path) (member : path ∈ dropRepeats paths) :
    path ∈ paths := by
  induction paths using dropRepeats.induct with
  | case1 first second rest same inductionHypothesis =>
      rw [dropRepeats, if_pos same] at member
      rcases List.mem_cons.mp (inductionHypothesis member) with rfl | behind
      · exact List.mem_cons_self
      · exact List.mem_cons_of_mem _ (List.mem_cons_of_mem _ behind)
  | case2 first second rest other inductionHypothesis =>
      rw [dropRepeats, if_neg other] at member
      rcases List.mem_cons.mp member with rfl | behind
      · exact List.mem_cons_self
      · exact List.mem_cons_of_mem _ (inductionHypothesis behind)
  | case3 short few =>
      rwa [dropRepeats] at member
      exact few

theorem mem_of_mem_sorted (member : path ∈ sorted paths) : path ∈ paths :=
  List.mem_mergeSort.mp (mem_of_mem_dropRepeats _ member)

theorem exists_mem_dropRepeats (paths : List Path) (member : path ∈ paths) :
    ∃ kept ∈ dropRepeats paths, kept.key = path.key := by
  induction paths using dropRepeats.induct generalizing path with
  | case1 first second rest same inductionHypothesis =>
      rw [dropRepeats, if_pos same]
      rcases List.mem_cons.mp member with rfl | member
      · exact inductionHypothesis List.mem_cons_self
      · rcases List.mem_cons.mp member with rfl | behind
        · obtain ⟨kept, present, equal⟩ := inductionHypothesis List.mem_cons_self
          exact ⟨kept, present, equal.trans (same_iff.mp same)⟩
        · exact inductionHypothesis (List.mem_cons_of_mem _ behind)
  | case2 first second rest other inductionHypothesis =>
      rw [dropRepeats, if_neg other]
      rcases List.mem_cons.mp member with rfl | behind
      · exact ⟨_, List.mem_cons_self, rfl⟩
      · obtain ⟨kept, present, equal⟩ := inductionHypothesis behind
        exact ⟨kept, List.mem_cons_of_mem _ present, equal⟩
  | case3 short few =>
      rw [dropRepeats]
      · exact ⟨path, member, rfl⟩
      · exact few

theorem exists_mem_sorted (member : path ∈ paths) :
    ∃ kept ∈ sorted paths, kept.key = path.key :=
  exists_mem_dropRepeats _ (List.mem_mergeSort.mpr member)

theorem dropRepeats_increasing (ordered : paths.Pairwise fun left right => left.key ≤ right.key) :
    (dropRepeats paths).Pairwise fun left right => left.key < right.key := by
  induction paths using dropRepeats.induct with
  | case1 first second rest same inductionHypothesis =>
      rw [dropRepeats, if_pos same]
      exact inductionHypothesis (ordered.sublist (.cons_cons first (.cons second (.refl rest))))
  | case2 first second rest other inductionHypothesis =>
      obtain ⟨above, behind⟩ := List.pairwise_cons.mp ordered
      have less : first.key < second.key :=
        lt_of_le_of_ne (above second List.mem_cons_self) fun same => other (same_iff.mpr same)
      rw [dropRepeats, if_neg other]
      refine List.pairwise_cons.mpr ⟨fun later member => ?_, inductionHypothesis behind⟩
      rcases List.mem_cons.mp (mem_of_mem_dropRepeats _ member) with rfl | further
      · exact less
      · exact less.trans_le ((List.pairwise_cons.mp behind).1 later further)
  | case3 short few =>
      rw [dropRepeats]
      · match short with
        | [] => exact .nil
        | [single] => exact List.pairwise_singleton _ _
        | first :: second :: rest => exact (few first second rest rfl).elim
      · exact few

theorem sorted_increasing (paths : List Path) :
    (sorted paths).Pairwise fun left right => left.key < right.key := by
  have le_iff (left right : Path) : (!right.lt left) = true ↔ left.key ≤ right.key := by
    rw [Bool.not_eq_true', ← Bool.not_eq_true, lt_iff, not_lt]
  refine dropRepeats_increasing ((List.pairwise_mergeSort ?_ ?_ paths).imp ?_)
  · intro first second third
    simpa only [le_iff] using le_trans
  · intro first second
    simpa only [Bool.or_eq_true, le_iff] using le_total first.key second.key
  · intro left right
    exact (le_iff left right).mp

/-- Lists that hold the same paths, up to the spelling, are the same when they are sorted. -/
theorem sorted_components_congr
    (left : ∀ path ∈ paths, ∃ other ∈ others, other.components = path.components)
    (right : ∀ path ∈ others, ∃ other ∈ paths, other.components = path.components) :
    (sorted paths).map components = (sorted others).map components := by
  have within {one two : List Path}
      (held : ∀ path ∈ one, ∃ other ∈ two, other.components = path.components) :
      ∀ entry ∈ (sorted one).map key, entry ∈ (sorted two).map key := by
    intro entry member
    obtain ⟨path, present, rfl⟩ := List.mem_map.mp member
    obtain ⟨other, found, equal⟩ := held path (mem_of_mem_sorted present)
    obtain ⟨kept, stays, same⟩ := exists_mem_sorted found
    exact List.mem_map.mpr ⟨kept, stays, same.trans (key_eq_iff.mpr equal)⟩
  have increasing (list : List Path) : ((sorted list).map key).SortedLT :=
    List.sortedLT_iff_pairwise.mpr (List.pairwise_map.mpr (sorted_increasing list))
  have keys : (sorted paths).map key = (sorted others).map key :=
    (increasing paths).eq_of_mem_iff (increasing others) fun entry =>
      ⟨within left entry, within right entry⟩
  have factored : key = List.map PathComponent.key ∘ components := rfl
  rw [factored, ← List.map_map, ← List.map_map] at keys
  exact List.map_injective_iff.mpr
    (List.map_injective_iff.mpr PathComponent.key_injective) keys

theorem sorted_singleton (path : Path) : sorted [path] = [path] := by
  rw [sorted, List.mergeSort_singleton, dropRepeats]
  simp

theorem sorted_pair {first second : Path} (ordered : second.lt first = false)
    (different : first.same second = false) : sorted [first, second] = [first, second] := by
  have inOrder : [first, second].Pairwise fun left right => (!right.lt left) = true := by
    simp [ordered]
  have apart : ¬ first.same second = true := Bool.eq_false_iff.mp different
  rw [sorted, List.mergeSort_of_pairwise inOrder, dropRepeats, if_neg apart, dropRepeats]
  simp

end Path

end StyleMacros
