import StyleMacros.Rendering.Edit

/-!
# Which edits are applied

Application goes through the edits in the order of their ranges and leaves out those that begin
inside a range already replaced. None is left out exactly if no two ranges meet.
-/

set_option autoImplicit false

namespace StyleMacros.Edit

/-! ## Order -/

theorem insertSorted_perm (edit : Edit) (edits : List Edit) :
    (insertSorted edit edits).Perm (edit :: edits) := by
  induction edits with
  | nil => exact .refl _
  | cons head rest inductionHypothesis =>
      rw [insertSorted]
      split
      · exact .refl _
      · exact (inductionHypothesis.cons head).trans (.swap edit head rest)

theorem sort_perm (edits : List Edit) : (sort edits).Perm edits := by
  induction edits with
  | nil => exact .refl _
  | cons head rest inductionHypothesis =>
      exact (insertSorted_perm head (sort rest)).trans (inductionHypothesis.cons head)

theorem mem_sort {edit : Edit} {edits : List Edit} : edit ∈ sort edits ↔ edit ∈ edits :=
  (sort_perm edits).mem_iff

theorem le_iff {left right : Edit} : left.le right = true ↔
    left.start < right.start ∨ left.start = right.start ∧ left.stop ≤ right.stop := by
  simp [le]

theorem insertSorted_sorted (edit : Edit) {edits : List Edit}
    (sorted : edits.Pairwise fun left right => left.le right = true) :
    (insertSorted edit edits).Pairwise fun left right => left.le right = true := by
  induction edits with
  | nil => simp [insertSorted]
  | cons head rest inductionHypothesis =>
      obtain ⟨headFirst, restSorted⟩ := List.pairwise_cons.mp sorted
      rw [insertSorted]
      split
      · rename_i before
        refine List.pairwise_cons.mpr ⟨?_, sorted⟩
        intro other member
        rcases List.mem_cons.mp member with rfl | member
        · exact before
        · have later := headFirst other member
          rw [le_iff] at before later ⊢
          omega
      · rename_i behind
        refine List.pairwise_cons.mpr ⟨?_, inductionHypothesis restSorted⟩
        intro other member
        rcases List.mem_cons.mp ((insertSorted_perm edit rest).mem_iff.mp member) with rfl | member
        · rw [le_iff] at behind ⊢
          omega
        · exact headFirst other member

theorem sort_sorted (edits : List Edit) :
    (sort edits).Pairwise fun left right => left.le right = true := by
  induction edits with
  | nil => exact .nil
  | cons head rest inductionHypothesis => exact insertSorted_sorted head inductionHypothesis

/-! ## Disjoint ranges -/

/-- The two ranges do not meet; an empty range meets only those it lies inside of. -/
def Apart (left right : Edit) : Prop :=
  left.stop ≤ right.start ∨ right.stop ≤ left.start

theorem Apart.symm {left right : Edit} (apart : left.Apart right) : right.Apart left :=
  Or.symm apart

/-- In the order of their ranges, every edit stops before the next one starts. -/
def Disjoint (edits : List Edit) : Prop :=
  (sort edits).Pairwise fun earlier later => earlier.stop ≤ later.start

theorem disjoint_iff_pairwise_apart {edits : List Edit}
    (forward : ∀ edit ∈ edits, edit.start ≤ edit.stop) :
    Disjoint edits ↔ edits.Pairwise Apart := by
  rw [← (sort_perm edits).pairwise_iff Apart.symm]
  constructor
  · intro disjoint
    exact disjoint.imp Or.inl
  · intro apart
    refine (apart.and (sort_sorted edits)).imp_of_mem ?_
    intro left right leftMember rightMember related
    obtain ⟨apart, sorted⟩ := related
    have leftForward := forward left (mem_sort.mp leftMember)
    have rightForward := forward right (mem_sort.mp rightMember)
    rw [le_iff] at sorted
    unfold Apart at apart
    omega

/-! ## Applied edits -/

def appliedFrom (cursor : Nat) : List Edit → List Edit
  | [] => []
  | edit :: rest =>
    if edit.start < cursor then appliedFrom cursor rest
    else edit :: appliedFrom edit.stop rest

/-- The edits that application does not leave out. -/
def applied (edits : List Edit) : List Edit :=
  appliedFrom 0 (sort edits)

theorem appliedFrom_sublist (cursor : Nat) (edits : List Edit) :
    (appliedFrom cursor edits).Sublist edits := by
  induction edits generalizing cursor with
  | nil => exact .slnil
  | cons head rest inductionHypothesis =>
      rw [appliedFrom]
      split
      · exact (inductionHypothesis cursor).cons head
      · exact (inductionHypothesis head.stop).cons_cons head

theorem appliedFrom_eq_self_iff {edits : List Edit}
    (forward : ∀ edit ∈ edits, edit.start ≤ edit.stop) (cursor : Nat) :
    appliedFrom cursor edits = edits ↔
      (∀ edit ∈ edits, cursor ≤ edit.start) ∧
        edits.Pairwise fun earlier later => earlier.stop ≤ later.start := by
  induction edits generalizing cursor with
  | nil => simp [appliedFrom]
  | cons head rest inductionHypothesis =>
      have headForward := forward head List.mem_cons_self
      have restForward := fun edit member => forward edit (List.mem_cons_of_mem head member)
      rw [appliedFrom]
      split
      · rename_i inside
        constructor
        · -- an edit that is left out is missing in the length
          intro same
          have length := (appliedFrom_sublist cursor rest).length_le
          rw [same, List.length_cons] at length
          omega
        · rintro ⟨behind, _⟩
          have := behind head List.mem_cons_self
          omega
      · rename_i outside
        rw [List.cons_inj_right, inductionHypothesis restForward, List.pairwise_cons]
        constructor
        · rintro ⟨behind, ordered⟩
          refine ⟨?_, behind, ordered⟩
          intro edit member
          rcases List.mem_cons.mp member with rfl | member
          · omega
          · have := behind edit member
            omega
        · rintro ⟨_, behind, ordered⟩
          exact ⟨behind, ordered⟩

/-- No edit is left out exactly if no two ranges meet. -/
theorem applied_eq_sort_iff_disjoint {edits : List Edit}
    (forward : ∀ edit ∈ edits, edit.start ≤ edit.stop) :
    applied edits = sort edits ↔ Disjoint edits := by
  have sortedForward : ∀ edit ∈ sort edits, edit.start ≤ edit.stop := fun edit member =>
    forward edit (mem_sort.mp member)
  rw [applied, appliedFrom_eq_self_iff sortedForward]
  constructor
  · exact fun facts => facts.2
  · exact fun disjoint => ⟨fun edit _ => Nat.zero_le edit.start, disjoint⟩

theorem text_infix_applyFrom {source : Text} {edit : Edit} {edits : List Edit} {cursor : Nat}
    (member : edit ∈ appliedFrom cursor edits) : edit.text <:+: applyFrom source cursor edits := by
  induction edits generalizing cursor with
  | nil => simp [appliedFrom] at member
  | cons head rest inductionHypothesis =>
      rw [appliedFrom] at member
      rw [applyFrom]
      split at member
      · rename_i inside
        rw [if_pos inside]
        exact inductionHypothesis member
      · rename_i outside
        rw [if_neg outside]
        rcases List.mem_cons.mp member with rfl | member
        · exact ⟨_, _, rfl⟩
        · exact (inductionHypothesis member).trans (List.suffix_append _ _).isInfix

end StyleMacros.Edit
