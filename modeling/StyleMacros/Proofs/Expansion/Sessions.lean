import Mathlib.Data.List.InsertIdx
import StyleMacros.Proofs.Expansion.Placement
import StyleMacros.Rendering.File
import StyleMacros.Report.Encoding

/-!
# Sessions with an expansion

In a session errors are taken out of an expansion, sites are dropped, and the expansion is
rendered, reported and asked about, in any order. Sites and errors are told apart by where they
stand in the expansion as it was made. The first taking hands out every error of the sites that are
left, in order, and no later one hands out any.
-/

set_option autoImplicit false

namespace StyleMacros

inductive SessionStep where
  | change (change : ExpansionStep)
  | render (options : RenderOptions)
  | report
  | state

inductive SessionAnswer where
  | errors (taken : List Diagnostic)
  | sites (left : Nat)
  | rendered (output : Option Text)
  | report (report : JsonValue)
  | state (isEmpty hasErrors : Bool) (fragments errors : Nat) (sound : List Bool)

namespace FileExpansion

def perform (expansion : FileExpansion) (source : Text) :
    SessionStep → SessionAnswer × FileExpansion
  | .change .takeErrors => (.errors expansion.takeErrors.1, expansion.takeErrors.2)
  | .change (.dropSite index) =>
    (.sites (expansion.dropSite index).sites.length, expansion.dropSite index)
  | .render options => (.rendered (expansion.render source options), expansion)
  | .report => (.report expansion.json, expansion)
  | .state =>
    (.state expansion.isEmpty expansion.hasErrors expansion.fragmentCount expansion.errors.length
      (expansion.sites.map SiteExpansion.isOk), expansion)

def session (expansion : FileExpansion) (source : Text) :
    List SessionStep → List SessionAnswer × FileExpansion
  | [] => ([], expansion)
  | step :: rest =>
    let (answer, after) := expansion.perform source step
    let (answers, final) := after.session source rest
    (answer :: answers, final)

end FileExpansion

def SessionAnswer.takings (answers : List SessionAnswer) : List (List Diagnostic) :=
  answers.filterMap fun answer =>
    match answer with
    | .errors taken => some taken
    | _ => none

/-! ## Which sites are left, and which errors there are -/

abbrev NumberedSite := SiteExpansion × Nat

/-- An error with the number of its site and its place among the errors of the site. -/
structure RecordedError where
  site : Nat
  place : Nat
  diagnostic : Diagnostic

def RecordedError.Precedes (first second : RecordedError) : Prop :=
  first.site < second.site ∨ first.site = second.site ∧ first.place < second.place

theorem RecordedError.Precedes.ne {first second : RecordedError} (before : first.Precedes second) :
    first ≠ second := by
  rintro rfl
  rcases before with site | ⟨-, place⟩
  · exact Nat.lt_irrefl _ site
  · exact Nat.lt_irrefl _ place

def NumberedSite.recorded (numbered : NumberedSite) : List RecordedError :=
  numbered.1.errors.zipIdx.map fun entry => ⟨numbered.2, entry.2, entry.1⟩

def SessionStep.leave (sites : List NumberedSite) : SessionStep → List NumberedSite
  | .change (.dropSite index) => sites.eraseIdx index
  | _ => sites

theorem SessionStep.leave_eq_self {step : SessionStep}
    (keeps : ∀ index, step ≠ .change (.dropSite index)) (sites : List NumberedSite) :
    step.leave sites = sites := by
  unfold leave
  split
  · rename_i index
    exact absurd rfl (keeps index)
  · rfl

namespace FileExpansion

def numbered (expansion : FileExpansion) : List NumberedSite :=
  expansion.sites.zipIdx

def recorded (expansion : FileExpansion) : List RecordedError :=
  expansion.numbered.flatMap NumberedSite.recorded

def remaining (expansion : FileExpansion) (steps : List SessionStep) : List NumberedSite :=
  steps.foldl SessionStep.leave expansion.numbered

end FileExpansion

def SiteExpansion.withoutErrors (site : SiteExpansion) : SiteExpansion :=
  { site with errors := [] }

section Numbers

variable {sites : List NumberedSite} {expansion : FileExpansion} {error : RecordedError}

theorem foldl_leave_sublist (sites : List NumberedSite) (steps : List SessionStep) :
    (steps.foldl SessionStep.leave sites).Sublist sites := by
  induction steps generalizing sites with
  | nil => exact List.Sublist.refl sites
  | cons step rest inductionHypothesis =>
      refine (inductionHypothesis _).trans ?_
      unfold SessionStep.leave
      split
      · exact List.eraseIdx_sublist _ _
      · exact List.Sublist.refl _

theorem numbered_pairwise (expansion : FileExpansion) :
    expansion.numbered.Pairwise fun first second => first.2 < second.2 := by
  have ordered : (expansion.numbered.map Prod.snd).Pairwise (· < ·) := by
    rw [FileExpansion.numbered, List.zipIdx_map_snd]
    exact List.pairwise_lt_range'
  exact List.pairwise_map.mp ordered

theorem eq_of_mem_numbered {first second : SiteExpansion} {number : Nat}
    (member : (first, number) ∈ expansion.numbered)
    (other : (second, number) ∈ expansion.numbered) : first = second :=
  Option.some_inj.mp
    ((List.mem_zipIdx_iff_getElem?.mp member).symm.trans (List.mem_zipIdx_iff_getElem?.mp other))

theorem NumberedSite.mem_recorded_iff {numbered : NumberedSite} :
    error ∈ numbered.recorded ↔
      error.site = numbered.2 ∧ numbered.1.errors[error.place]? = some error.diagnostic := by
  rw [recorded, List.mem_map]
  constructor
  · rintro ⟨entry, member, rfl⟩
    exact ⟨rfl, List.mem_zipIdx_iff_getElem?.mp member⟩
  · rintro ⟨site, found⟩
    exact ⟨(error.diagnostic, error.place), List.mem_zipIdx_iff_getElem?.mpr found, by rw [← site]⟩

theorem mem_flatMap_recorded_iff (left : sites.Sublist expansion.numbered) :
    error ∈ sites.flatMap NumberedSite.recorded ↔
      error ∈ expansion.recorded ∧ error.site ∈ sites.map Prod.snd := by
  simp only [FileExpansion.recorded, List.mem_flatMap, List.mem_map]
  constructor
  · rintro ⟨numbered, member, inside⟩
    exact ⟨⟨numbered, left.subset member, inside⟩,
      numbered, member, (NumberedSite.mem_recorded_iff.mp inside).1.symm⟩
  · rintro ⟨⟨⟨site, number⟩, member, inside⟩, ⟨other, otherNumber⟩, otherMember, same⟩
    obtain rfl : number = otherNumber :=
      (NumberedSite.mem_recorded_iff.mp inside).1.symm.trans same.symm
    obtain rfl := eq_of_mem_numbered member (left.subset otherMember)
    exact ⟨_, otherMember, inside⟩

theorem NumberedSite.recorded_pairwise (numbered : NumberedSite) :
    numbered.recorded.Pairwise RecordedError.Precedes := by
  have places : (numbered.1.errors.zipIdx.map Prod.snd).Pairwise (· < ·) := by
    rw [List.zipIdx_map_snd]
    exact List.pairwise_lt_range'
  exact List.pairwise_map.mpr ((List.pairwise_map.mp places).imp fun before => .inr ⟨rfl, before⟩)

theorem flatMap_recorded_pairwise (left : sites.Sublist expansion.numbered) :
    (sites.flatMap NumberedSite.recorded).Pairwise RecordedError.Precedes := by
  refine List.pairwise_flatMap.mpr ⟨fun numbered _ => numbered.recorded_pairwise, ?_⟩
  refine ((numbered_pairwise expansion).sublist left).imp fun before first member second other => ?_
  rw [RecordedError.Precedes, (NumberedSite.mem_recorded_iff.mp member).1,
    (NumberedSite.mem_recorded_iff.mp other).1]
  exact .inl before

theorem map_diagnostic_recorded (numbered : NumberedSite) :
    numbered.recorded.map RecordedError.diagnostic = numbered.1.errors := by
  rw [NumberedSite.recorded, List.map_map]
  exact List.zipIdx_map_fst 0 numbered.1.errors

end Numbers

/-! ## What is handed out -/

def SessionStep.takes : SessionStep → Bool
  | .change .takeErrors => true
  | _ => false

theorem SessionStep.takes_eq_true_iff {step : SessionStep} :
    step.takes = true ↔ step = .change .takeErrors := by
  constructor
  · intro takes
    cases step with
    | change change =>
        cases change with
        | takeErrors => rfl
        | dropSite index => cases takes
    | render options => cases takes
    | report => cases takes
    | state => cases takes
  · rintro rfl
    rfl

/-- The errors that each taking hands out: those of the sites that are left, once. -/
def handedOut (sites : List NumberedSite) (taken : Bool) :
    List SessionStep → List (List RecordedError)
  | [] => []
  | step :: rest =>
    let later := handedOut (step.leave sites) (taken || step.takes) rest
    if step.takes then (if taken then [] else sites.flatMap NumberedSite.recorded) :: later
    else later

theorem handedOut_of_taken (sites : List NumberedSite) (steps : List SessionStep) :
    (handedOut sites true steps).flatten = [] := by
  induction steps generalizing sites with
  | nil => rfl
  | cons step rest inductionHypothesis =>
      simp only [handedOut, Bool.true_or, if_true]
      split
      · exact inductionHypothesis _
      · exact inductionHypothesis _

theorem handedOut_of_none {steps : List SessionStep} (sites : List NumberedSite)
    (none : SessionStep.change .takeErrors ∉ steps) : handedOut sites false steps = [] := by
  induction steps generalizing sites with
  | nil => rfl
  | cons step rest inductionHypothesis =>
      obtain ⟨other, behind⟩ := List.ne_and_not_mem_of_not_mem_cons none
      have keeps : step.takes = false :=
        Bool.eq_false_iff.mpr fun takes => other (SessionStep.takes_eq_true_iff.mp takes).symm
      simp only [handedOut, keeps, Bool.or_false, Bool.false_eq_true, if_false]
      exact inductionHypothesis _ behind

theorem handedOut_of_first {early : List SessionStep} (sites : List NumberedSite)
    (none : SessionStep.change .takeErrors ∉ early) (late : List SessionStep) :
    (handedOut sites false (early ++ .change .takeErrors :: late)).flatten =
      (early.foldl SessionStep.leave sites).flatMap NumberedSite.recorded := by
  induction early generalizing sites with
  | nil =>
      have later := handedOut_of_taken sites late
      simp only [List.nil_append, handedOut, SessionStep.takes, Bool.or_true, if_true,
        Bool.false_eq_true, if_false, List.flatten_cons, SessionStep.leave, later, List.append_nil,
        List.foldl_nil]
  | cons step rest inductionHypothesis =>
      obtain ⟨other, behind⟩ := List.ne_and_not_mem_of_not_mem_cons none
      have keeps : step.takes = false :=
        Bool.eq_false_iff.mpr fun takes => other (SessionStep.takes_eq_true_iff.mp takes).symm
      simp only [List.cons_append, handedOut, keeps, Bool.or_false, Bool.false_eq_true, if_false,
        List.foldl_cons]
      exact inductionHypothesis _ behind

/-! ## What a session does -/

/-- What an expansion holds: some sites, with their errors or without them. -/
def FileExpansion.Holds (expansion : FileExpansion) (sites : List NumberedSite) (taken : Bool) :
    Prop :=
  expansion.sites = sites.map fun numbered =>
    if taken then numbered.1.withoutErrors else numbered.1

namespace FileExpansion.Holds

variable {expansion : FileExpansion} {sites : List NumberedSite} {taken : Bool}

theorem step (holds : expansion.Holds sites taken) (source : Text) (step : SessionStep) :
    (expansion.perform source step).2.Holds (step.leave sites) (taken || step.takes) := by
  cases step with
  | change change =>
      cases change with
      | takeErrors =>
          change expansion.sites.map SiteExpansion.withoutErrors = sites.map _
          rw [holds, List.map_map]
          refine List.map_congr_left fun numbered _ => ?_
          cases taken <;> rfl
      | dropSite index =>
          change expansion.sites.eraseIdx index = (sites.eraseIdx index).map _
          rw [holds, List.eraseIdx_map, Bool.or_comm]
          rfl
  | render options => exact (Bool.or_false taken).symm ▸ holds
  | report => exact (Bool.or_false taken).symm ▸ holds
  | state => exact (Bool.or_false taken).symm ▸ holds

theorem errors (holds : expansion.Holds sites taken) :
    expansion.errors =
      (if taken then [] else sites.flatMap NumberedSite.recorded).map RecordedError.diagnostic := by
  rw [FileExpansion.errors, holds, List.flatMap_map]
  cases taken with
  | true => simp [SiteExpansion.withoutErrors]
  | false => simp [List.map_flatMap, map_diagnostic_recorded]

theorem session (holds : expansion.Holds sites taken) (source : Text) (steps : List SessionStep) :
    (expansion.session source steps).2.Holds (steps.foldl SessionStep.leave sites)
        (taken || steps.any SessionStep.takes) ∧
      SessionAnswer.takings (expansion.session source steps).1 =
        (handedOut sites taken steps).map (List.map RecordedError.diagnostic) := by
  induction steps generalizing expansion sites taken with
  | nil => exact ⟨(Bool.or_false taken).symm ▸ holds, rfl⟩
  | cons step rest inductionHypothesis =>
      obtain ⟨after, takings⟩ := inductionHypothesis (holds.step source step)
      refine ⟨?_, ?_⟩
      · rw [List.any_cons, ← Bool.or_assoc]
        exact after
      · cases step with
        | change change =>
            cases change with
            | takeErrors =>
                change expansion.errors :: SessionAnswer.takings _ =
                  List.map _ ((if taken then [] else sites.flatMap NumberedSite.recorded) :: _)
                rw [List.map_cons, ← holds.errors]
                exact congrArg _ takings
            | dropSite index => exact takings
        | render options => exact takings
        | report => exact takings
        | state => exact takings

theorem withoutErrors (holds : expansion.Holds sites taken) :
    expansion.sites.map SiteExpansion.withoutErrors =
      sites.map (SiteExpansion.withoutErrors ∘ Prod.fst) := by
  rw [holds, List.map_map]
  refine List.map_congr_left fun numbered _ => ?_
  cases taken <;> rfl

theorem render_eq_none_iff (holds : expansion.Holds sites taken) (source : Text)
    (options : RenderOptions) :
    expansion.render source options = none ↔
      taken = false ∧ sites.flatMap NumberedSite.recorded ≠ [] := by
  have errors : expansion.hasErrors = true ↔ expansion.errors ≠ [] := by
    simp [hasErrors, FileExpansion.errors, SiteExpansion.isOk]
  have refused : expansion.render source options = none ↔ expansion.hasErrors = true := by
    rw [render]
    split <;> simp_all
  rw [refused, errors, holds.errors]
  cases taken <;> simp

end FileExpansion.Holds

section Sessions

variable {start : FileExpansion} {steps : List SessionStep} {error : RecordedError}

theorem remaining_sublist (start : FileExpansion) (steps : List SessionStep) :
    (start.remaining steps).Sublist start.numbered :=
  foldl_leave_sublist _ _

/-- What is handed out by the end are the errors of the sites that are left at the first taking. -/
theorem flatten_handedOut_cases (start : FileExpansion) (steps : List SessionStep) :
    (SessionStep.change .takeErrors ∉ steps ∧ (handedOut start.numbered false steps).flatten = []) ∨
      ∃ early late, steps = early ++ .change .takeErrors :: late ∧
        SessionStep.change .takeErrors ∉ early ∧
        (handedOut start.numbered false steps).flatten =
          (start.remaining early).flatMap NumberedSite.recorded := by
  by_cases taken : SessionStep.change .takeErrors ∈ steps
  · obtain ⟨early, late, rfl, none⟩ := List.eq_append_cons_of_mem taken
    exact .inr ⟨early, late, rfl, none, handedOut_of_first _ none late⟩
  · exact .inl ⟨taken, by rw [handedOut_of_none _ taken, List.flatten_nil]⟩

theorem mem_flatten_handedOut_iff :
    error ∈ (handedOut start.numbered false steps).flatten ↔ error ∈ start.recorded ∧
      ∃ early late, steps = early ++ .change .takeErrors :: late ∧
        .change .takeErrors ∉ early ∧ error.site ∈ (start.remaining early).map Prod.snd := by
  constructor
  · intro member
    rcases flatten_handedOut_cases start steps with ⟨-, nothing⟩ | ⟨early, late, split, none, all⟩
    · rw [nothing] at member
      cases member
    · rw [all] at member
      obtain ⟨recorded, left⟩ :=
        (mem_flatMap_recorded_iff (remaining_sublist start early)).mp member
      exact ⟨recorded, early, late, split, none, left⟩
  · rintro ⟨recorded, early, late, rfl, none, left⟩
    rw [handedOut_of_first _ none late]
    exact (mem_flatMap_recorded_iff (remaining_sublist start early)).mpr ⟨recorded, left⟩

theorem flatten_handedOut_pairwise (start : FileExpansion) (steps : List SessionStep) :
    (handedOut start.numbered false steps).flatten.Pairwise RecordedError.Precedes := by
  rcases flatten_handedOut_cases start steps with ⟨-, nothing⟩ | ⟨early, -, -, -, all⟩
  · rw [nothing]
    exact .nil
  · rw [all]
    exact flatMap_recorded_pairwise (remaining_sublist start early)

/-- Errors are left if and only if nothing has been taken and a site that has some is left. -/
theorem exists_outstanding_iff :
    (∃ error ∈ start.recorded, error.site ∈ (start.remaining steps).map Prod.snd ∧
        error ∉ (handedOut start.numbered false steps).flatten) ↔
      steps.any SessionStep.takes = false ∧
        (start.remaining steps).flatMap NumberedSite.recorded ≠ [] := by
  have member {error : RecordedError} :
      error ∈ (start.remaining steps).flatMap NumberedSite.recorded ↔
        error ∈ start.recorded ∧ error.site ∈ (start.remaining steps).map Prod.snd :=
    mem_flatMap_recorded_iff (remaining_sublist start steps)
  constructor
  · rintro ⟨error, recorded, left, outstanding⟩
    refine ⟨List.any_eq_false.mpr fun step present takes => outstanding ?_,
      List.ne_nil_of_mem (member.mpr ⟨recorded, left⟩)⟩
    rw [SessionStep.takes_eq_true_iff.mp takes] at present
    obtain ⟨early, late, rfl, none⟩ := List.eq_append_cons_of_mem present
    -- A site that is left at the end has been there at the first taking.
    have earlier : (start.remaining (early ++ .change .takeErrors :: late)).Sublist
        (start.remaining early) := by
      rw [FileExpansion.remaining, List.foldl_append]
      exact foldl_leave_sublist _ _
    exact mem_flatten_handedOut_iff.mpr
      ⟨recorded, early, late, rfl, none, (earlier.map Prod.snd).subset left⟩
  · rintro ⟨untouched, some⟩
    obtain ⟨error, inside⟩ := List.exists_mem_of_ne_nil _ some
    obtain ⟨recorded, left⟩ := member.mp inside
    refine ⟨error, recorded, left, fun handed => ?_⟩
    obtain ⟨-, early, late, rfl, -, -⟩ := mem_flatten_handedOut_iff.mp handed
    have takes := List.any_eq_false.mp untouched (.change .takeErrors) (by simp)
    exact takes rfl

end Sessions

/-- A session hands every error out that belongs to a site which is left at the first taking, in
order and once, and no other; at any point it refuses to render exactly if an error of a site that
is left has not been handed out; and nothing but the dropping of a site changes what is known of the
sites apart from their errors. -/
theorem session_hands_out_each_error_once (source : SourceText) (settings : ExpansionSettings)
    (steps : List SessionStep) :
    let start := FileExpansion.ofSource source settings
    let answers := (start.session source.content steps).1
    let final := (start.session source.content steps).2
    ∃ handed : List (List RecordedError),
      SessionAnswer.takings answers = handed.map (List.map RecordedError.diagnostic) ∧
      handed.flatten.Pairwise RecordedError.Precedes ∧ handed.flatten.Nodup ∧
      (∀ error, error ∈ handed.flatten ↔ error ∈ start.recorded ∧
        ∃ early late, steps = early ++ .change .takeErrors :: late ∧
          .change .takeErrors ∉ early ∧ error.site ∈ (start.remaining early).map Prod.snd) ∧
      (∀ options, final.render source.content options = none ↔
        ∃ error ∈ start.recorded, error.site ∈ (start.remaining steps).map Prod.snd ∧
          error ∉ handed.flatten) ∧
      final.sites.map SiteExpansion.withoutErrors =
        (start.remaining steps).map (SiteExpansion.withoutErrors ∘ Prod.fst) ∧
      ∀ step, (∀ index, step ≠ .change (.dropSite index)) →
        ((final.perform source.content step).2.sites.map SiteExpansion.withoutErrors =
          final.sites.map SiteExpansion.withoutErrors) := by
  intro start answers final
  have atStart : start.Holds start.numbered false := (List.zipIdx_map_fst 0 start.sites).symm
  obtain ⟨holds, takings⟩ := atStart.session source.content steps
  have ordered := flatten_handedOut_pairwise start steps
  refine ⟨handedOut start.numbered false steps, takings, ordered,
    ordered.imp RecordedError.Precedes.ne, fun error => mem_flatten_handedOut_iff,
    fun options => ?_, holds.withoutErrors, fun step keeps => ?_⟩
  · rw [exists_outstanding_iff]
    exact holds.render_eq_none_iff source.content options
  · rw [(holds.step source.content step).withoutErrors, SessionStep.leave_eq_self keeps,
      holds.withoutErrors]

end StyleMacros
