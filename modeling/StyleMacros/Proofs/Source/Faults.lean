import Mathlib.Data.List.Forall2
import StyleMacros.Source.Annotated
import StyleMacros.Proofs.Source.Literals
import StyleMacros.Proofs.Source.Placement

/-!
# The first fault of a site

A site is accepted if its argument lists can be read, its target is a declaration and its
arguments are literals. Otherwise one fault is reported, the first: that of an argument list comes
before that of the target, and that of the target before that of an argument, in the order in
which attributes, arguments and elements are written.
-/

set_option autoImplicit false

namespace StyleMacros

/-! ## The first item that is of another kind -/

section Firsts

variable {Item Result Fault : Type} {kind : Item → Prop} {items : List Item} {item : Item}

def IsFirstNot (kind : Item → Prop) (items : List Item) (item : Item) : Prop :=
  ∃ before after, items = before ++ item :: after ∧ (∀ earlier ∈ before, kind earlier) ∧ ¬ kind item

theorem exists_isFirstNot (other : ¬ ∀ item ∈ items, kind item) :
    ∃ item, IsFirstNot kind items item := by
  induction items with
  | nil => exact absurd (fun _ member => nomatch member) other
  | cons head rest inductionHypothesis =>
      by_cases good : kind head
      · have behind : ¬ ∀ item ∈ rest, kind item := fun all =>
          other (List.forall_mem_cons.mpr ⟨good, all⟩)
        obtain ⟨item, before, after, rfl, early, bad⟩ := inductionHypothesis behind
        exact ⟨item, head :: before, after, rfl, List.forall_mem_cons.mpr ⟨good, early⟩, bad⟩
      · exact ⟨head, [], rest, rfl, (fun _ member => nomatch member), good⟩

theorem IsFirstNot.not_kind (first : IsFirstNot kind items item) : ¬ kind item :=
  first.elim fun _ split => split.elim fun _ parts => parts.2.2

theorem IsFirstNot.mem (first : IsFirstNot kind items item) : item ∈ items := by
  obtain ⟨before, after, exact, -⟩ := first
  rw [exact]
  exact List.mem_append_right before List.mem_cons_self

theorem IsFirstNot.find?_eq {test : Item → Bool}
    (first : IsFirstNot (test · = false) items item) : items.find? test = some item := by
  obtain ⟨before, after, rfl, early, bad⟩ := first
  refine List.find?_eq_some_iff_append.mpr ⟨Bool.not_eq_false _ ▸ bad, before, after, rfl, ?_⟩
  intro earlier member
  rw [early earlier member]
  rfl

theorem IsFirstNot.mapM_eq_error {step : Item → Except Fault Result} {fault : Fault}
    (first : IsFirstNot kind items item)
    (accepts : ∀ item, kind item → ∃ result, step item = .ok result)
    (refuses : step item = .error fault) : items.mapM step = .error fault := by
  obtain ⟨before, after, rfl, early, -⟩ := first
  induction before with
  | nil =>
      rw [List.nil_append, List.mapM_cons, refuses]
      rfl
  | cons head rest inductionHypothesis =>
      obtain ⟨good, early⟩ := List.forall_mem_cons.mp early
      obtain ⟨result, accepted⟩ := accepts head good
      rw [List.cons_append, List.mapM_cons, accepted, inductionHypothesis early]
      rfl

theorem mapM_eq_ok_of_forall₂ {step : Item → Except Fault Result} {results : List Result}
    (each : List.Forall₂ (fun item result => step item = .ok result) items results) :
    items.mapM step = .ok results := by
  induction each with
  | nil => rfl
  | cons first _ inductionHypothesis =>
      rw [List.mapM_cons, first, inductionHypothesis]
      rfl

theorem exists_forall₂ {counterpart : Item → Result → Prop}
    (each : ∀ item ∈ items, ∃ result, counterpart item result) :
    ∃ results, List.Forall₂ counterpart items results := by
  induction items with
  | nil => exact ⟨[], .nil⟩
  | cons head rest inductionHypothesis =>
      obtain ⟨⟨result, here⟩, behind⟩ := List.forall_mem_cons.mp each
      obtain ⟨results, others⟩ := inductionHypothesis behind
      exact ⟨result :: results, .cons here others⟩

end Firsts

/-! ## Literals -/

def Expression.IsPlain (expression : Expression) : Prop :=
  ∃ value span, expression = .string value false span

theorem Expression.literalString_of_isPlain {expression : Expression} (plain : expression.IsPlain)
    (name : MacroName) : ∃ value, expression.literalString name = .ok value := by
  obtain ⟨value, span, rfl⟩ := plain
  exact ⟨value, rfl⟩

theorem Expression.literalString_of_not_isPlain {expression : Expression}
    (other : ¬ expression.IsPlain) (name : MacroName) :
    ∃ fault reason, expression.literalString name = .error ⟨fault, expression.span⟩ ∧
      fault.kind = .malformedArgument name reason := by
  cases expression with
  | string value interpolated span =>
      cases interpolated with
      | false => exact absurd ⟨value, span, rfl⟩ other
      | true => exact ⟨.interpolated name, _, rfl, rfl⟩
  | array elements span => exact ⟨.nestedArray name, _, rfl, rfl⟩
  | other text span => exact ⟨.notAStringElement name text, _, rfl, rfl⟩

theorem Expression.exists_denotes_array {elements : List Expression} (span : Span)
    (plain : ∀ element ∈ elements, element.IsPlain) :
    ∃ value, (Expression.array elements span).Denotes value := by
  obtain ⟨values, listed⟩ : ∃ values, List.Forall₂
      (fun element value => ∃ span, element = Expression.string value false span) elements values :=
    exists_forall₂ plain
  exact ⟨.list values, listed⟩

namespace SourceArgument

/-- The argument is written with a literal, and so it is understood. -/
structure Denotes (written : SourceArgument) (argument : Argument) : Prop where
  label : argument.label = written.label
  span : argument.span = written.span
  value : ∃ expression, written.value = some expression ∧ expression.Denotes argument.value

def IsLiteral (written : SourceArgument) : Prop :=
  ∃ argument, written.Denotes argument

/-- Where the first part of an argument lies that is no literal: an element of a list, or the
whole. -/
def FlawAt (written : SourceArgument) (span : Span) : Prop :=
  match written.value with
  | none => span = written.span
  | some (.array elements _) =>
    ∃ element, IsFirstNot Expression.IsPlain elements element ∧ span = element.span
  | some expression => span = expression.span

theorem Denotes.literal {written : SourceArgument} {argument : Argument}
    (denotes : written.Denotes argument) (name : MacroName) :
    written.literal name = .ok argument := by
  obtain ⟨label, span, expression, present, value⟩ := denotes
  unfold SourceArgument.literal
  simp only [present, value.literal name, Except.map, ← label, ← span]

/-- An argument that is no literal is refused, at the first part of it that is none. -/
theorem exists_flaw {written : SourceArgument} (other : ¬ written.IsLiteral) (name : MacroName) :
    ∃ fault span reason, written.FlawAt span ∧ written.literal name = .error ⟨fault, span⟩ ∧
      fault.kind = .malformedArgument name reason := by
  have denotesNone : ∀ expression value, written.value = some expression →
      ¬ expression.Denotes value := fun expression value present denotes =>
    other ⟨⟨written.label, value, written.span⟩, rfl, rfl, expression, present, denotes⟩
  unfold FlawAt SourceArgument.literal
  cases present : written.value with
  | none => exact ⟨.noValue name, _, _, rfl, rfl, rfl⟩
  | some expression =>
      cases expression with
      | string value interpolated span =>
          cases interpolated with
          | false => exact absurd ⟨rfl, rfl⟩ (denotesNone _ (.string value) present)
          | true => exact ⟨.interpolated name, _, _, rfl, rfl, rfl⟩
      | other text span => exact ⟨.notALiteral name text, _, _, rfl, rfl, rfl⟩
      | array elements span =>
          have mixed : ¬ ∀ element ∈ elements, element.IsPlain := fun plain =>
            (Expression.exists_denotes_array span plain).elim fun value =>
              denotesNone _ value present
          obtain ⟨element, first⟩ := exists_isFirstNot mixed
          obtain ⟨fault, reason, refused, blamed⟩ :=
            Expression.literalString_of_not_isPlain first.not_kind name
          have listed := first.mapM_eq_error
            (fun _ plain => Expression.literalString_of_isPlain plain name) refused
          refine ⟨fault, element.span, reason, ⟨element, first, rfl⟩, ?_, blamed⟩
          simp only [Expression.literal, listed]
          rfl

end SourceArgument

/-! ## Attributes and declarations -/

namespace Attribute

def TakesLiterals (written : Attribute) : Prop :=
  ∀ argument ∈ written.arguments.getD [], argument.IsLiteral

structure Denotes (name : MacroName) (written : Attribute) (invocation : Invocation) : Prop where
  name : invocation.name = name
  span : invocation.span = written.span
  arguments :
    List.Forall₂ SourceArgument.Denotes (written.arguments.getD []) invocation.arguments

variable {written : Attribute} {name : MacroName}

theorem Denotes.invocation {invocation : Invocation} (denotes : Denotes name written invocation) :
    written.invocation name = .ok invocation := by
  have listed : (written.arguments.getD []).mapM (SourceArgument.literal name) =
      .ok invocation.arguments :=
    mapM_eq_ok_of_forall₂ (denotes.arguments.imp fun _ _ denoted => denoted.literal name)
  unfold Attribute.invocation
  rw [listed, Except.map, ← denotes.name, ← denotes.span]

theorem exists_denotes (literal : written.TakesLiterals) (name : MacroName) :
    ∃ invocation, Denotes name written invocation := by
  obtain ⟨arguments, denoted⟩ := exists_forall₂ literal
  exact ⟨⟨name, arguments, written.span⟩, rfl, rfl, denoted⟩

theorem exists_flaw (other : ¬ written.TakesLiterals) (name : MacroName) :
    ∃ argument fault span reason,
      IsFirstNot SourceArgument.IsLiteral (written.arguments.getD []) argument ∧
      argument.FlawAt span ∧ written.invocation name = .error ⟨fault, span⟩ ∧
      fault.kind = .malformedArgument name reason := by
  obtain ⟨argument, first⟩ := exists_isFirstNot other
  obtain ⟨fault, span, reason, flaw, refused, blamed⟩ :=
    SourceArgument.exists_flaw first.not_kind name
  have listed := first.mapM_eq_error
    (fun _ literal => literal.imp fun _ denoted => denoted.literal name) refused
  refine ⟨argument, fault, span, reason, first, flaw, ?_, blamed⟩
  rw [Attribute.invocation, listed]
  rfl

end Attribute

structure SourceDeclaration.Denotes (written : SourceDeclaration) (declaration : Declaration) :
    Prop where
  name : declaration.name = written.name
  kind : declaration.kind = .ofKeyword written.keyword written.name
  genericParameters :
    declaration.genericParameters = written.genericParameters.map GenericParameter.name
  /-- The access level is that of the first modifier that has one. -/
  access : ∀ level, declaration.access = some level ↔
    IsFirstNot (fun modifier => modifier.access? = none) written.modifiers (.access level)
  span : declaration.span = written.span

theorem Keyword.isSome_ofText?_iff {word : Text} :
    (Keyword.ofText? word).isSome ↔ ∃ keyword : Keyword, keyword.text = word := by
  constructor
  · intro found
    obtain ⟨keyword, found⟩ := Option.isSome_iff_exists.mp found
    exact ⟨keyword, by simpa using List.find?_some found⟩
  · rintro ⟨keyword, rfl⟩
    cases keyword <;> decide

theorem SourceDeclaration.denotes (written : SourceDeclaration) :
    written.Denotes written.declaration where
  name := rfl
  kind := rfl
  genericParameters := rfl
  access := by
    intro level
    change written.modifiers.findSome? Modifier.access? = some level ↔ _
    rw [List.findSome?_eq_some_iff]
    constructor
    · rintro ⟨before, modifier, after, split, found, early⟩
      cases modifier with
      | access other =>
          cases found
          exact ⟨before, after, split, early, nofun⟩
      | final => cases found
      | indirect => cases found
      | nonisolated => cases found
    · rintro ⟨before, after, split, early, -⟩
      exact ⟨before, _, after, split, rfl, early⟩
  span := rfl

/-! ## Sites -/

namespace Site

variable {site : Site} {first : MacroName × Attribute} {others : List (MacroName × Attribute)}

def FailsWith (site : Site) (kind : DiagnosticKind) (span : Span) : Prop :=
  ∃ fault, site.annotated = .error ⟨fault, span⟩ ∧ fault.kind = kind

/-- The argument list of every macro can be read, if it has one. -/
def Readable (site : Site) : Prop :=
  ∀ used ∈ site.macros, used.2.malformedArguments = false

theorem annotated_eq (listed : site.macros = first :: others) (readable : site.Readable) :
    site.annotated = do
      let declaration ← site.declaration first.1
      let invocations ← site.macros.mapM fun used => used.2.invocation used.1
      return ⟨declaration, invocations⟩ := by
  have none : site.macros.find? (fun used => used.2.malformedArguments) = none :=
    List.find?_eq_none.mpr fun used member => by simp [readable used member]
  unfold annotated
  rw [listed] at none ⊢
  simp only [none]

theorem annotated_of_malformed {used : MacroName × Attribute}
    (malformed : IsFirstNot (fun used : MacroName × Attribute => used.2.malformedArguments = false)
      site.macros used) :
    site.annotated = .error ⟨.malformedArguments used.2.name,
      ⟨used.2.span.stop, used.2.span.stop + 1⟩⟩ := by
  have found : site.macros.find? (fun used => used.2.malformedArguments) = some used :=
    malformed.find?_eq
  unfold annotated
  split
  · rename_i none
    rw [none] at found
    cases found
  · rw [found]

/-- A target that is no declaration is blamed on the first macro, unless it is one that cannot be
read to its end. -/
theorem fails_of_target (listed : site.macros = first :: others) (readable : site.Readable) :
    (∀ keyword span, site.target = .word (Keyword.text keyword) span →
      site.FailsWith (.parse ("incomplete `" ++ keyword.text ++ "` declaration")) span) ∧
    (∀ word span, site.target = .word word span → (¬ ∃ keyword : Keyword, keyword.text = word) →
      ∃ reason, site.FailsWith (.malformedDeclaration first.1 reason) span) ∧
    (site.target = .nothing →
      ∃ reason, site.FailsWith (.malformedDeclaration first.1 reason) site.span) := by
  unfold FailsWith
  rw [annotated_eq listed readable]
  refine ⟨fun keyword span target => ?_, fun word span target other => ?_, fun target => ?_⟩
  · have known : (Keyword.ofText? keyword.text).isSome := Keyword.isSome_ofText?_iff.mpr ⟨_, rfl⟩
    refine ⟨.incompleteDeclaration keyword.text, ?_, rfl⟩
    simp only [declaration, target, known, if_true]
    rfl
  · have unknown : ¬ (Keyword.ofText? word).isSome := fun found =>
      other (Keyword.isSome_ofText?_iff.mp found)
    refine ⟨_, .otherTarget first.1 word, ?_, rfl⟩
    simp only [declaration, target, unknown]
    rfl
  · refine ⟨_, .noTarget first.1, ?_, rfl⟩
    simp only [declaration, target]
    rfl

variable {written : SourceDeclaration}

theorem annotated_of_literals (listed : site.macros = first :: others) (readable : site.Readable)
    (target : site.target = .declaration written)
    (literal : ∀ used ∈ site.macros, used.2.TakesLiterals) :
    ∃ annotated, site.annotated = .ok annotated ∧ written.Denotes annotated.declaration ∧
      List.Forall₂ (fun used invocation => Attribute.Denotes used.1 used.2 invocation) site.macros
        annotated.invocations := by
  obtain ⟨invocations, denoted⟩ := exists_forall₂ fun used member =>
    Attribute.exists_denotes (literal used member) used.1
  have all : site.macros.mapM (fun used => used.2.invocation used.1) =
      .ok (ε := Located SiteFault) invocations :=
    mapM_eq_ok_of_forall₂ (denoted.imp fun _ _ denotes => denotes.invocation)
  refine ⟨⟨written.declaration, invocations⟩, ?_, written.denotes, denoted⟩
  rw [annotated_eq listed readable, declaration, target, all]
  rfl

theorem fails_of_argument (listed : site.macros = first :: others) (readable : site.Readable)
    (target : site.target = .declaration written)
    (mixed : ¬ ∀ used ∈ site.macros, used.2.TakesLiterals) :
    ∃ used argument span reason,
      IsFirstNot (fun used => used.2.TakesLiterals) site.macros used ∧
      IsFirstNot SourceArgument.IsLiteral (used.2.arguments.getD []) argument ∧
      argument.FlawAt span ∧ site.FailsWith (.malformedArgument used.1 reason) span := by
  obtain ⟨used, firstUsed⟩ := exists_isFirstNot mixed
  obtain ⟨argument, fault, span, reason, firstArgument, flaw, refused, blamed⟩ :=
    Attribute.exists_flaw firstUsed.not_kind used.1
  have all : site.macros.mapM (fun used => used.2.invocation used.1) = .error ⟨fault, span⟩ :=
    firstUsed.mapM_eq_error
      (fun used literal => (Attribute.exists_denotes literal used.1).imp fun _ denotes =>
        denotes.invocation) refused
  refine ⟨used, argument, span, reason, firstUsed, firstArgument, flaw, fault, ?_, blamed⟩
  rw [annotated_eq listed readable, declaration, target, all]
  rfl

end Site

end StyleMacros
