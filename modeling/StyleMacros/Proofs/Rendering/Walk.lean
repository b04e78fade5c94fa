import Mathlib.Data.List.Pairwise
import StyleMacros.Proofs.Rendering.Edits
import StyleMacros.Proofs.Text.Offsets

/-!
# Edits as one walk

A walk goes through a text from left to right. At each place it writes what is to be put in
there, and then the character that stands there, unless that one is dropped. Edits whose ranges
do not meet are applied by such a walk, in whatever order they are given.
-/

set_option autoImplicit false

namespace StyleMacros

/-! ## Walks -/

/-- The text, whose first character stands at the offset, with what is put in and without what is
dropped. -/
def Text.walk (put : Nat → Text) (dropped : Nat → Bool) : Nat → Text → Text
  | offset, [] => put offset
  | offset, head :: rest =>
    put offset ++ ((if dropped offset then [] else [head]) ++
      walk put dropped (offset + head.utf8Size) rest)

namespace Text

variable {put put' : Nat → Text} {dropped dropped' : Nat → Bool} {offset : Nat}

theorem walk_congr {text : Text} (samePut : ∀ place, offset ≤ place → put place = put' place)
    (sameDropped : ∀ front head rest, text = front ++ head :: rest →
      dropped (offset + size front) = dropped' (offset + size front)) :
    walk put dropped offset text = walk put' dropped' offset text := by
  induction text generalizing offset with
  | nil => exact samePut offset (Nat.le_refl _)
  | cons head rest inductionHypothesis =>
      have here : dropped offset = dropped' offset := sameDropped [] head rest rfl
      rw [walk, walk, samePut offset (Nat.le_refl _), here, inductionHypothesis]
      · intro place low
        exact samePut place (by omega)
      · intro front next behind split
        have later := sameDropped (head :: front) next behind (by rw [split]; rfl)
        rwa [size_cons, ← Nat.add_assoc] at later

theorem walk_kept {piece rest : Text}
    (nothing : ∀ place, offset ≤ place → place < offset + size piece → put place = [])
    (kept : ∀ place, offset ≤ place → place < offset + size piece → dropped place = false) :
    walk put dropped offset (piece ++ rest) =
      piece ++ walk put dropped (offset + size piece) rest := by
  induction piece generalizing offset with
  | nil => rfl
  | cons head tail inductionHypothesis =>
      have positive := head.utf8Size_pos
      rw [size_cons] at nothing kept
      rw [List.cons_append, walk, nothing offset (Nat.le_refl _) (by omega),
        kept offset (Nat.le_refl _) (by omega), inductionHypothesis, size_cons, Nat.add_assoc]
      · rfl
      · intro place low high
        exact nothing place (by omega) (by omega)
      · intro place low high
        exact kept place (by omega) (by omega)

theorem walk_dropped {piece rest : Text} (nonempty : piece ≠ [])
    (nothing : ∀ place, offset < place → place < offset + size piece → put place = [])
    (all : ∀ place, offset ≤ place → place < offset + size piece → dropped place = true) :
    walk put dropped offset (piece ++ rest) =
      put offset ++ walk put dropped (offset + size piece) rest := by
  induction piece generalizing offset with
  | nil => exact absurd rfl nonempty
  | cons head tail inductionHypothesis =>
      have positive := head.utf8Size_pos
      rw [size_cons] at nothing all
      rw [List.cons_append, walk, all offset (Nat.le_refl _) (by omega), if_pos rfl,
        List.nil_append, size_cons, ← Nat.add_assoc]
      cases tail with
      | nil => rfl
      | cons second others =>
          have secondPositive := second.utf8Size_pos
          rw [size_cons] at nothing all
          rw [inductionHypothesis (List.cons_ne_nil _ _), nothing (offset + head.utf8Size) (by omega)
            (by omega), List.nil_append]
          · intro place low high
            rw [size_cons] at high
            exact nothing place (by omega) (by omega)
          · intro place low high
            rw [size_cons] at high
            exact all place (by omega) (by omega)

end Text

/-! ## Edits at a place -/

namespace Edit

def textAt (edits : List Edit) (place : Nat) : Text :=
  (edits.filter fun edit => edit.start = place).flatMap Edit.text

def covers (edits : List Edit) (place : Nat) : Bool :=
  edits.any fun edit => edit.start ≤ place && place < edit.stop

variable {edit : Edit} {edits : List Edit} {place : Nat}

theorem textAt_cons_of_eq (same : edit.start = place) :
    textAt (edit :: edits) place = edit.text ++ textAt edits place := by
  simp [textAt, same]

theorem textAt_cons_of_ne (other : edit.start ≠ place) :
    textAt (edit :: edits) place = textAt edits place := by
  simp [textAt, other]

theorem textAt_of_lt (later : ∀ edit ∈ edits, place < edit.start) : textAt edits place = [] := by
  have none : (edits.filter fun edit => edit.start = place) = [] := by
    apply List.filter_eq_nil_iff.mpr
    intro edit member same
    have behind := later edit member
    rw [of_decide_eq_true same] at behind
    exact Nat.lt_irrefl _ behind
  rw [textAt, none]
  rfl

theorem covers_cons (edit : Edit) (edits : List Edit) (place : Nat) :
    covers (edit :: edits) place =
      ((edit.start ≤ place && place < edit.stop : Bool) || covers edits place) :=
  rfl

theorem covers_of_lt (later : ∀ edit ∈ edits, place < edit.start) : covers edits place = false := by
  apply List.any_eq_false.mpr
  intro edit member inside
  have behind := later edit member
  simp only [Bool.and_eq_true, decide_eq_true_eq] at inside
  omega

theorem textAt_singleton (edit : Edit) (place : Nat) :
    textAt [edit] place = if edit.start = place then edit.text else [] := by
  by_cases here : edit.start = place
  · rw [textAt_cons_of_eq here, if_pos here]
    exact List.append_nil _
  · rw [textAt_cons_of_ne here, if_neg here]
    rfl

theorem textAt_append (edits others : List Edit) (place : Nat) :
    textAt (edits ++ others) place = textAt edits place ++ textAt others place := by
  rw [textAt, List.filter_append, List.flatMap_append]
  rfl

theorem textAt_flatMap {Item : Type} (items : List Item) (edits : Item → List Edit) (place : Nat) :
    textAt (items.flatMap edits) place = items.flatMap fun item => textAt (edits item) place := by
  rw [textAt, List.filter_flatMap, List.flatMap_assoc]
  rfl

theorem covers_singleton (edit : Edit) (place : Nat) :
    covers [edit] place = (edit.start ≤ place && place < edit.stop : Bool) :=
  Bool.or_false _

theorem covers_append (edits others : List Edit) (place : Nat) :
    covers (edits ++ others) place = (covers edits place || covers others place) :=
  List.any_append

theorem covers_flatMap {Item : Type} (items : List Item) (edits : Item → List Edit) (place : Nat) :
    covers (items.flatMap edits) place = items.any fun item => covers (edits item) place :=
  List.any_flatMap

theorem covers_of_empty (empty : ∀ edit ∈ edits, edit.stop ≤ edit.start) :
    covers edits place = false := by
  apply List.any_eq_false.mpr
  intro edit member inside
  have nothing := empty edit member
  simp only [Bool.and_eq_true, decide_eq_true_eq] at inside
  omega

/-! ## Application as a walk -/

theorem walk_nil (offset : Nat) (text : Text) :
    Text.walk (textAt []) (covers []) offset text = text := by
  induction text generalizing offset with
  | nil => rfl
  | cons head rest inductionHypothesis =>
      rw [Text.walk, inductionHypothesis]
      rfl

/-- At the start of an edit the walk puts in its text and goes on behind what it covers. -/
theorem walk_cons {covered rest : Text} (forward : edit.stop = edit.start + covered.size)
    (behind : ∀ other ∈ edits, edit.stop ≤ other.start) :
    Text.walk (textAt (edit :: edits)) (covers (edit :: edits)) edit.start (covered ++ rest) =
      edit.text ++ Text.walk (textAt edits) (covers edits) edit.stop rest := by
  have coversBehind (place : Nat) (later : edit.stop ≤ place) :
      covers (edit :: edits) place = covers edits place := by
    have outside : (edit.start ≤ place && place < edit.stop : Bool) = false := by
      simp only [Bool.and_eq_false_iff, decide_eq_false_iff_not]
      omega
    rw [covers_cons, outside, Bool.false_or]
  by_cases empty : covered = []
  · subst empty
    have same : edit.stop = edit.start := by simpa using forward
    rw [same] at behind coversBehind ⊢
    rw [List.nil_append]
    cases rest with
    | nil => exact textAt_cons_of_eq rfl
    | cons head tail =>
        have positive := head.utf8Size_pos
        rw [Text.walk, Text.walk, textAt_cons_of_eq rfl, coversBehind _ (Nat.le_refl _),
          List.append_assoc]
        congr 3
        apply Text.walk_congr
        · intro place later
          exact textAt_cons_of_ne (by omega)
        · intro front _ _ _
          exact coversBehind _ (by omega)
  · have positive : 0 < covered.size := by
      apply Nat.pos_of_ne_zero
      intro zero
      exact empty (Text.eq_nil_of_size_eq_zero zero)
    rw [Text.walk_dropped empty, textAt_cons_of_eq rfl, textAt_of_lt, List.append_nil, ← forward]
    · congr 1
      apply Text.walk_congr
      · intro place later
        exact textAt_cons_of_ne (by omega)
      · intro front _ _ _
        exact coversBehind _ (by omega)
    · intro other member
      have later := behind other member
      omega
    · intro place low high
      rw [textAt_cons_of_ne (by omega)]
      apply textAt_of_lt
      intro other member
      have later := behind other member
      omega
    · intro place low high
      have inside : (edit.start ≤ place && place < edit.stop : Bool) = true := by
        simp only [Bool.and_eq_true, decide_eq_true_eq]
        omega
      rw [covers_cons, inside, Bool.true_or]

/-- Edits in order are applied by a walk. -/
theorem applyFrom_eq_walk {source : Text} {edits : List Edit} {cursor : Nat}
    (fits : ∀ edit ∈ edits, source.IsBoundary edit.start ∧ source.IsBoundary edit.stop ∧
      edit.start ≤ edit.stop)
    (ordered : edits.Pairwise fun earlier later => earlier.stop ≤ later.start)
    (boundary : source.IsBoundary cursor) (ahead : ∀ edit ∈ edits, cursor ≤ edit.start) :
    applyFrom source cursor edits =
      Text.walk (textAt edits) (covers edits) cursor (source.dropBytes cursor) := by
  induction edits generalizing cursor with
  | nil => exact (walk_nil cursor _).symm
  | cons edit later inductionHypothesis =>
      obtain ⟨start, stop, forward⟩ := fits edit List.mem_cons_self
      obtain ⟨behindEdit, laterOrdered⟩ := List.pairwise_cons.mp ordered
      have reached := ahead edit List.mem_cons_self
      have rest := inductionHypothesis
        (fun other member => fits other (List.mem_cons_of_mem edit member)) laterOrdered stop
        behindEdit
      have keptSize := boundary.size_slice start reached
      have coveredSize := start.size_slice stop forward
      have none (place : Nat) (before : place < edit.start) :
          ∀ other ∈ edit :: later, place < other.start := by
        intro other member
        rcases List.mem_cons.mp member with rfl | member
        · exact before
        · have further := behindEdit other member
          omega
      rw [applyFrom, if_neg (Nat.not_lt.mpr reached), rest,
        boundary.dropBytes_eq_slice_append start reached, Text.walk_kept, keptSize,
        Nat.add_sub_cancel' reached, start.dropBytes_eq_slice_append stop forward,
        walk_cons (by omega) behindEdit, List.append_assoc]
      · intro place low high
        exact textAt_of_lt (none place (by omega))
      · intro place low high
        exact covers_of_lt (none place (by omega))

/-! ## The order of the edits -/

/-- The order in which edits are given makes no difference to what they put in at a place, if no
two of them put something in there. -/
theorem textAt_perm {edits others : List Edit} (same : edits.Perm others)
    (single : edits.Pairwise fun left right =>
      left.start = right.start → left.text = [] ∨ right.text = []) (place : Nat) :
    textAt edits place = textAt others place := by
  induction same with
  | nil => rfl
  | @cons head rest rest' perm inductionHypothesis =>
      have others := inductionHypothesis (List.pairwise_cons.mp single).2
      by_cases here : head.start = place
      · rw [textAt_cons_of_eq here, textAt_cons_of_eq here, others]
      · rw [textAt_cons_of_ne here, textAt_cons_of_ne here, others]
  | swap first second rest =>
      have apart := (List.pairwise_cons.mp single).1 first List.mem_cons_self
      by_cases firstHere : first.start = place
      · by_cases secondHere : second.start = place
        · rw [textAt_cons_of_eq secondHere, textAt_cons_of_eq firstHere,
            textAt_cons_of_eq firstHere, textAt_cons_of_eq secondHere]
          rcases apart (secondHere.trans firstHere.symm) with empty | empty
          · rw [empty, List.nil_append, List.nil_append]
          · rw [empty, List.nil_append, List.nil_append]
        · rw [textAt_cons_of_ne secondHere, textAt_cons_of_eq firstHere,
            textAt_cons_of_eq firstHere, textAt_cons_of_ne secondHere]
      · by_cases secondHere : second.start = place
        · rw [textAt_cons_of_eq secondHere, textAt_cons_of_ne firstHere,
            textAt_cons_of_ne firstHere, textAt_cons_of_eq secondHere]
        · rw [textAt_cons_of_ne secondHere, textAt_cons_of_ne firstHere,
            textAt_cons_of_ne firstHere, textAt_cons_of_ne secondHere]
  | @trans first second third perm _ firstHypothesis secondHypothesis =>
      rw [firstHypothesis single]
      apply secondHypothesis
      refine perm.pairwise single ?_
      intro left right apart meets
      exact (apart meets.symm).symm

theorem covers_perm {edits others : List Edit} (same : edits.Perm others) (place : Nat) :
    covers edits place = covers others place :=
  same.any_eq

/-- Edits whose ranges do not meet, and of which no two put something in at one place, are applied
by a walk. -/
theorem apply_eq_walk {source : Text} {edits : List Edit}
    (fits : ∀ edit ∈ edits, source.IsBoundary edit.start ∧ source.IsBoundary edit.stop ∧
      edit.start ≤ edit.stop)
    (disjoint : Disjoint edits)
    (single : edits.Pairwise fun left right =>
      left.start = right.start → left.text = [] ∨ right.text = []) :
    apply edits source = Text.walk (textAt edits) (covers edits) 0 source := by
  have walked := applyFrom_eq_walk (fun edit member => fits edit (mem_sort.mp member)) disjoint
    (Text.IsBoundary.zero source) (fun edit _ => Nat.zero_le edit.start)
  have whole : source.dropBytes 0 = source := Text.dropBytes_size_append [] source
  rw [apply, walked, whole]
  apply Text.walk_congr
  · intro place _
    exact (textAt_perm (sort_perm edits).symm single place).symm
  · intro front _ _ _
    exact covers_perm (sort_perm edits) _

end Edit

end StyleMacros
