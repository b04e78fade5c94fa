import Mathlib.Data.List.Nodup
import StyleMacros.Expansion.Invocation

/-!
# Which uses are accepted

An invocation is accepted exactly where it has one of four forms, and then stands for the names
that it is given. Where the names of sub-views are refused, the first of them to blame is named:
the names before it would be accepted.
-/

set_option autoImplicit false

namespace StyleMacros

/-! ## Names of sub-views -/

/-- Names that `@Style` takes: identifiers that lower case changes and does not bring together. -/
structure SubViewsFit (names : List Text) : Prop where
  identifiers : ∀ name ∈ names, name.isIdentifier = true
  changed : ∀ name ∈ names, name.lowerFirst ≠ name
  apart : (names.map Text.lowerFirst).Nodup

/-- What is wrong with a name behind the names `earlier`; a fault of a kind further up counts
first. -/
inductive SubViewFlaw (earlier : List Text) (name : Text) : UseFault → Prop where
  | notAnIdentifier (other : name.isIdentifier = false) :
      SubViewFlaw earlier name (.notASubView name)
  | unchanged (word : name.isIdentifier = true) (same : name.lowerFirst = name) :
      SubViewFlaw earlier name (.lowercaseSubView name)
  | taken (word : name.isIdentifier = true) (changed : name.lowerFirst ≠ name)
      (repeated : ∃ other ∈ earlier, other.lowerFirst = name.lowerFirst) :
      SubViewFlaw earlier name (.repeatedSubView name)

section SubViews

variable {earlier names : List Text} {name : Text} {cause : UseFault}

theorem subViewsFit_nil : SubViewsFit [] :=
  ⟨by simp, by simp, by simp⟩

theorem SubViewsFit.concat (fit : SubViewsFit earlier) (word : name.isIdentifier = true)
    (changed : name.lowerFirst ≠ name) (fresh : name.lowerFirst ∉ earlier.map Text.lowerFirst) :
    SubViewsFit (earlier ++ [name]) where
  identifiers := List.forall_mem_append.mpr ⟨fit.identifiers, List.forall_mem_singleton.mpr word⟩
  changed := List.forall_mem_append.mpr ⟨fit.changed, List.forall_mem_singleton.mpr changed⟩
  apart := by
    rw [List.map_append, List.map_singleton]
    exact List.nodup_append.mpr ⟨fit.apart, List.nodup_singleton _, fun lowered member other last =>
      fun same => fresh (List.mem_singleton.mp last ▸ same ▸ member)⟩

theorem SubViewFlaw.not_fit (flaw : SubViewFlaw earlier name cause) (later : List Text) :
    ¬ SubViewsFit (earlier ++ name :: later) := by
  intro fit
  have member : name ∈ earlier ++ name :: later := by simp
  cases flaw with
  | notAnIdentifier other => exact Bool.false_ne_true (other.symm.trans (fit.identifiers name member))
  | unchanged word same => exact fit.changed name member same
  | taken word changed repeated =>
      obtain ⟨other, otherMember, same⟩ := repeated
      have apart := fit.apart
      rw [List.map_append, List.map_cons] at apart
      have before : other.lowerFirst ∈ earlier.map Text.lowerFirst :=
        List.mem_map_of_mem otherMember
      exact (List.nodup_append.mp apart).2.2 _ before _ List.mem_cons_self same

def KnowsProperties (properties earlier : List Text) : Prop :=
  ∀ property, property ∈ properties ↔ ∃ other ∈ earlier, other.lowerFirst = property

/-- One step of the search: the first name is to blame, or it joins the names before it. -/
theorem subViewFault?_cons {properties : List Text} (knows : KnowsProperties properties earlier)
    (fit : SubViewsFit earlier) (name : Text) (rest : List Text) :
    (∃ cause, SubViewFlaw earlier name cause ∧
        subViewFault? properties (name :: rest) = some cause) ∨
      (SubViewsFit (earlier ++ [name]) ∧
        KnowsProperties (name.lowerFirst :: properties) (earlier ++ [name]) ∧
        subViewFault? properties (name :: rest) =
          subViewFault? (name.lowerFirst :: properties) rest) := by
  rw [subViewFault?]
  split
  · rename_i other
    exact .inl ⟨_, .notAnIdentifier (by simpa using other), rfl⟩
  · rename_i word
    have word : name.isIdentifier = true := by simpa using word
    split
    · rename_i same
      exact .inl ⟨_, .unchanged word same, rfl⟩
    · rename_i changed
      split
      · rename_i repeated
        exact .inl ⟨_, .taken word changed ((knows _).mp repeated), rfl⟩
      · rename_i fresh
        refine .inr ⟨fit.concat word changed fun repeated => ?_, fun property => ?_, rfl⟩
        · exact fresh ((knows _).mpr (List.mem_map.mp repeated))
        · simp only [List.mem_cons, List.mem_append, List.not_mem_nil, or_false, knows property]
          constructor
          · rintro (rfl | ⟨other, member, same⟩)
            · exact ⟨name, .inr rfl, rfl⟩
            · exact ⟨other, .inl member, same⟩
          · rintro ⟨other, member | rfl, same⟩
            · exact .inr ⟨other, member, same⟩
            · exact .inl same.symm

/-- The whole search: all names fit, or the first flaw is reported. -/
theorem subViewFault?_spec {properties : List Text} (knows : KnowsProperties properties earlier)
    (fit : SubViewsFit earlier) (names : List Text) :
    (SubViewsFit (earlier ++ names) ∧ subViewFault? properties names = none) ∨
      ∃ before name after cause, names = before ++ name :: after ∧
        SubViewsFit (earlier ++ before) ∧ SubViewFlaw (earlier ++ before) name cause ∧
        subViewFault? properties names = some cause := by
  induction names generalizing earlier properties with
  | nil => exact .inl ⟨by rwa [List.append_nil], rfl⟩
  | cons first rest inductionHypothesis =>
      rcases subViewFault?_cons knows fit first rest with ⟨cause, flaw, found⟩ | ⟨joined, known, next⟩
      · exact .inr ⟨[], first, rest, cause, rfl, by rwa [List.append_nil],
          by rwa [List.append_nil], found⟩
      · rw [next]
        rcases inductionHypothesis known joined with
          ⟨all, none⟩ | ⟨before, name, after, cause, rfl, sound, flaw, found⟩
        · exact .inl ⟨by rwa [List.append_assoc] at all, none⟩
        · rw [List.append_assoc] at sound flaw
          exact .inr ⟨first :: before, name, after, cause, rfl, sound, flaw, found⟩

theorem subViewFault?_eq_none_iff : subViewFault? [] names = none ↔ SubViewsFit names := by
  have knows : KnowsProperties [] [] := by simp [KnowsProperties]
  rcases subViewFault?_spec knows subViewsFit_nil names with
    ⟨fit, none⟩ | ⟨before, name, after, cause, rfl, -, flaw, found⟩
  · exact ⟨fun _ => fit, fun _ => none⟩
  · exact ⟨fun none => absurd (found.symm.trans none) nofun,
      fun fit => absurd fit (flaw.not_fit after)⟩

theorem subViewFault?_eq_some (found : subViewFault? [] names = some cause) :
    ∃ before name after, names = before ++ name :: after ∧ SubViewsFit before ∧
      SubViewFlaw before name cause := by
  have knows : KnowsProperties [] [] := by simp [KnowsProperties]
  rcases subViewFault?_spec knows subViewsFit_nil names with
    ⟨-, none⟩ | ⟨before, name, after, other, exact, fit, flaw, same⟩
  · exact absurd (found.symm.trans none) nofun
  · cases Option.some.inj (found.symm.trans same)
    exact ⟨before, name, after, exact, fit, flaw⟩

end SubViews

def UseFault.subView? : UseFault → Option Text
  | .notASubView name => some name
  | .lowercaseSubView name => some name
  | .repeatedSubView name => some name
  | _ => none

/-! ## Forms of the arguments -/

namespace Invocation

variable {invocation : Invocation} {declaration : Declaration} {targets : Targets}
  {argument : Argument} {fault : Located UseFault}

/-- The only argument is a list, without a label or with the label for sub-views. -/
structure TakesList (invocation : Invocation) (argument : Argument) (names : List Text) :
    Prop where
  only : invocation.arguments = [argument]
  label : argument.label = none ∨ argument.label = some "subViews"
  value : argument.value = .list names

structure TakesString (invocation : Invocation) (argument : Argument) (value : Text) : Prop where
  only : invocation.arguments = [argument]
  label : argument.label = none
  value : argument.value = .string value

/-- The place of a fault is the invocation, or an argument that has a place of its own. -/
def Blames (invocation : Invocation) (span : Span) : Prop :=
  span = invocation.span ∨
    ∃ argument ∈ invocation.arguments, argument.span.isEmpty = false ∧ span = argument.span

theorem blames_faultAt (member : argument ∈ invocation.arguments) (cause : UseFault) :
    invocation.Blames (invocation.faultAt argument cause).span := by
  unfold faultAt
  split
  · exact .inl rfl
  · rename_i place
    exact .inr ⟨argument, member, by simpa using place, rfl⟩

/-! ## The list of sub-views -/

theorem filter_ne_eq_none_iff {label : Option Text} {wanted : Text} :
    label.filter (fun text => text ≠ wanted) = none ↔ label = none ∨ label = some wanted := by
  cases label with
  | none => simp
  | some text => simp [Option.filter_some]

/-- The list is read if it is the only argument; then its names decide. -/
theorem TakesList.subViews_eq {names : List Text} (takes : invocation.TakesList argument names) :
    invocation.subViews =
      match subViewFault? [] names with
      | some cause => .error (invocation.faultAt argument cause)
      | none => .ok names := by
  have label := filter_ne_eq_none_iff.mpr takes.label
  cases found : subViewFault? [] names <;>
    simp only [subViews, takes.only, label, takes.value, found]

/-- Whatever else is written is refused, for another reason than a name. -/
theorem takesList_or_subViews_eq_error (invocation : Invocation) :
    (∃ argument names, invocation.TakesList argument names) ∨
      ∃ fault, invocation.subViews = .error fault ∧ invocation.Blames fault.span ∧
        fault.value.subView? = none := by
  unfold subViews
  split
  · rename_i argument only
    have member : argument ∈ invocation.arguments := by rw [only]; exact List.mem_cons_self
    split
    · exact .inr ⟨_, rfl, blames_faultAt member _, rfl⟩
    · exact .inr ⟨_, rfl, .inl rfl, rfl⟩
    · rename_i names label value
      exact .inl ⟨argument, names, only, filter_ne_eq_none_iff.mp label, value⟩
  · exact .inr ⟨_, rfl, .inl rfl, rfl⟩

theorem subViews_eq_ok_iff {names : List Text} :
    invocation.subViews = .ok names ↔
      ∃ argument, invocation.TakesList argument names ∧ SubViewsFit names := by
  constructor
  · intro success
    rcases takesList_or_subViews_eq_error invocation with ⟨argument, found, takes⟩ | ⟨fault, refused, -⟩
    · rw [takes.subViews_eq] at success
      split at success
      · cases success
      · rename_i sound
        cases success
        exact ⟨argument, takes, subViewFault?_eq_none_iff.mp sound⟩
    · rw [refused] at success
      cases success
  · rintro ⟨argument, takes, fit⟩
    rw [takes.subViews_eq, subViewFault?_eq_none_iff.mpr fit]

/-- The fault is due to a name in a list of sub-views, the first that does not fit behind those
before it, and lies in the argument that holds the list. -/
def FaultOfFirst (invocation : Invocation) (fault : Located UseFault) (name : Text) : Prop :=
  ∃ argument before after, invocation.TakesList argument (before ++ name :: after) ∧
    SubViewsFit before ∧ SubViewFlaw before name fault.value ∧
    fault = invocation.faultAt argument fault.value

theorem subViews_error (refused : invocation.subViews = .error fault) :
    invocation.Blames fault.span ∧
      ∀ name, fault.value.subView? = some name → invocation.FaultOfFirst fault name := by
  rcases takesList_or_subViews_eq_error invocation with
    ⟨argument, names, takes⟩ | ⟨other, same, blames, silent⟩
  · rw [takes.subViews_eq] at refused
    split at refused
    · rename_i cause found
      cases refused
      refine ⟨blames_faultAt (by rw [takes.only]; exact List.mem_cons_self) cause, ?_⟩
      intro name named
      obtain ⟨before, first, after, rfl, fit, flaw⟩ := subViewFault?_eq_some found
      have same : first = name := by
        cases flaw <;> exact Option.some.inj named
      exact ⟨argument, before, after, same ▸ takes, fit, same ▸ flaw, rfl⟩
    · cases refused
  · cases same.symm.trans refused
    refine ⟨blames, fun name named => ?_⟩
    rw [silent] at named
    cases named

/-! ## The name of a style, and the extended type -/

theorem styleName_eq_ok_iff {style : Text} :
    invocation.styleName = .ok style ↔
      ∃ argument, invocation.TakesString argument style ∧ style.isIdentifier = true := by
  constructor
  · intro success
    unfold styleName at success
    split at success
    · rename_i argument only
      split at success
      · rename_i name label value
        split at success
        · rename_i word
          cases success
          exact ⟨argument, ⟨only, label, value⟩, word⟩
        · cases success
      · cases success
    · cases success
  · rintro ⟨argument, ⟨only, label, value⟩, word⟩
    simp only [styleName, only, label, value, word, if_true]

theorem styleName_error (refused : invocation.styleName = .error fault) :
    invocation.Blames fault.span ∧ fault.value.subView? = none := by
  unfold styleName at refused
  split at refused
  · rename_i argument only
    split at refused
    · split at refused
      · cases refused
      · cases refused
        exact ⟨blames_faultAt (by rw [only]; exact List.mem_cons_self) _, rfl⟩
    · cases refused
      exact ⟨.inl rfl, rfl⟩
  · cases refused
    exact ⟨.inl rfl, rfl⟩

theorem requireExtension_eq_ok_iff {wanted : Text} :
    invocation.requireExtension declaration wanted = .ok () ↔
      declaration.kind = .extensionOf wanted := by
  unfold requireExtension
  split
  · rename_i extended kind
    rw [kind, DeclarationKind.extensionOf.injEq]
    split <;> simp_all
  · rename_i other
    simpa using fun kind => other _ kind

theorem requireExtension_error {wanted : Text}
    (refused : invocation.requireExtension declaration wanted = .error fault) :
    fault.span = invocation.span ∧ fault.value.subView? = none := by
  unfold requireExtension at refused
  split at refused
  · split at refused
    · cases refused
    · cases refused
      exact ⟨rfl, rfl⟩
  · cases refused
    exact ⟨rfl, rfl⟩

/-! ## Uses -/

def namedUse (invocation : Invocation) (declaration : Declaration) (wanted : Text)
    (make : Text → Use) : Except (Located UseFault) Use := do
  invocation.requireExtension declaration wanted
  return make (← invocation.styleName)

theorem namedUse_eq_ok_iff {wanted : Text} {make : Text → Use} {use : Use} :
    invocation.namedUse declaration wanted make = .ok use ↔
      declaration.kind = .extensionOf wanted ∧ ∃ argument style,
        invocation.TakesString argument style ∧ style.isIdentifier = true ∧ make style = use := by
  unfold namedUse
  cases extends_ : invocation.requireExtension declaration wanted with
  | error fault =>
      have other : declaration.kind ≠ .extensionOf wanted := fun kind => by
        rw [requireExtension_eq_ok_iff.mpr kind] at extends_
        cases extends_
      exact ⟨nofun, fun accepted => absurd accepted.1 other⟩
  | ok _ =>
      have kind := requireExtension_eq_ok_iff.mp extends_
      cases read : invocation.styleName with
      | error fault =>
          refine ⟨nofun, ?_⟩
          rintro ⟨-, argument, style, takes, word, -⟩
          rw [styleName_eq_ok_iff.mpr ⟨argument, takes, word⟩] at read
          cases read
      | ok style =>
          obtain ⟨argument, takes, word⟩ := styleName_eq_ok_iff.mp read
          constructor
          · intro success
            exact ⟨kind, argument, style, takes, word, Except.ok.inj success⟩
          · rintro ⟨-, other, found, otherTakes, otherWord, rfl⟩
            rw [styleName_eq_ok_iff.mpr ⟨other, otherTakes, otherWord⟩] at read
            cases read
            rfl

theorem namedUse_error {wanted : Text} {make : Text → Use}
    (refused : invocation.namedUse declaration wanted make = .error fault) :
    invocation.Blames fault.span ∧ fault.value.subView? = none := by
  unfold namedUse at refused
  cases extends_ : invocation.requireExtension declaration wanted with
  | error other =>
      rw [extends_] at refused
      cases refused
      exact (requireExtension_error extends_).imp .inl id
  | ok _ =>
      rw [extends_] at refused
      cases read : invocation.styleName with
      | error other =>
          rw [read] at refused
          cases refused
          exact styleName_error read
      | ok style =>
          rw [read] at refused
          cases refused

/-- The four forms of a use, each with what the invocation is given. -/
inductive Fits (invocation : Invocation) (declaration : Declaration) (targets : Targets) :
    Use → Prop where
  | style {argument : Argument} {names : List Text} (name : invocation.name = .style)
      (kind : declaration.kind = .protocol) (takes : invocation.TakesList argument names)
      (fit : SubViewsFit names) : Fits invocation declaration targets (.style names)
  | registerStyle {argument : Argument} {style : Text} (name : invocation.name = .registerStyle)
      (kind : declaration.kind = .extensionOf targets.environmentType)
      (takes : invocation.TakesString argument style) (word : style.isIdentifier = true) :
      Fits invocation declaration targets (.registerStyle style)
  | convenienceModifier {argument : Argument} {style : Text}
      (name : invocation.name = .convenienceModifier)
      (kind : declaration.kind = .extensionOf targets.viewType)
      (takes : invocation.TakesString argument style) (word : style.isIdentifier = true) :
      Fits invocation declaration targets (.convenienceModifier style)
  | component (name : invocation.name = .component) (kind : declaration.kind = .struct)
      (bare : invocation.arguments = []) : Fits invocation declaration targets .component

theorem use_eq_of_style (name : invocation.name = .style) :
    invocation.use declaration targets =
      if declaration.kind ≠ .protocol then .error (invocation.fault .notAProtocol)
      else invocation.subViews.map Use.style := by
  simp only [use, name]

theorem use_eq_of_registerStyle (name : invocation.name = .registerStyle) :
    invocation.use declaration targets =
      invocation.namedUse declaration targets.environmentType .registerStyle := by
  simp only [use, name, namedUse]

theorem use_eq_of_convenienceModifier (name : invocation.name = .convenienceModifier) :
    invocation.use declaration targets =
      invocation.namedUse declaration targets.viewType .convenienceModifier := by
  simp only [use, name, namedUse]

theorem use_eq_of_component (name : invocation.name = .component) :
    invocation.use declaration targets =
      if declaration.kind ≠ .struct then .error (invocation.fault .notAStruct)
      else if invocation.arguments ≠ [] then .error (invocation.fault .takesNoArguments)
      else .ok .component := by
  simp only [use, name]

theorem fits_of_use_eq_ok {use : Use} (accepted : invocation.use declaration targets = .ok use) :
    invocation.Fits declaration targets use := by
  cases name : invocation.name with
  | style =>
      rw [use_eq_of_style name] at accepted
      split at accepted
      · cases accepted
      · rename_i kind
        cases read : invocation.subViews with
        | error fault =>
            rw [read] at accepted
            cases accepted
        | ok names =>
            rw [read] at accepted
            cases accepted
            obtain ⟨argument, takes, fit⟩ := subViews_eq_ok_iff.mp read
            exact .style name (not_not.mp kind) takes fit
  | registerStyle =>
      rw [use_eq_of_registerStyle name] at accepted
      obtain ⟨kind, argument, style, takes, word, rfl⟩ := namedUse_eq_ok_iff.mp accepted
      exact .registerStyle name kind takes word
  | convenienceModifier =>
      rw [use_eq_of_convenienceModifier name] at accepted
      obtain ⟨kind, argument, style, takes, word, rfl⟩ := namedUse_eq_ok_iff.mp accepted
      exact .convenienceModifier name kind takes word
  | component =>
      rw [use_eq_of_component name] at accepted
      split at accepted
      · cases accepted
      · rename_i kind
        split at accepted
        · cases accepted
        · rename_i bare
          cases accepted
          exact .component name (not_not.mp kind) (not_not.mp bare)

theorem Fits.use_eq_ok {use : Use} (fits : invocation.Fits declaration targets use) :
    invocation.use declaration targets = .ok use := by
  cases fits with
  | style name kind takes fit =>
      rw [use_eq_of_style name, if_neg (not_not.mpr kind), subViews_eq_ok_iff.mpr ⟨_, takes, fit⟩]
      rfl
  | registerStyle name kind takes word =>
      rw [use_eq_of_registerStyle name]
      exact namedUse_eq_ok_iff.mpr ⟨kind, _, _, takes, word, rfl⟩
  | convenienceModifier name kind takes word =>
      rw [use_eq_of_convenienceModifier name]
      exact namedUse_eq_ok_iff.mpr ⟨kind, _, _, takes, word, rfl⟩
  | component name kind bare =>
      rw [use_eq_of_component name, if_neg (not_not.mpr kind), if_neg (not_not.mpr bare)]

theorem exists_fits_of_expand {settings : ExpansionSettings} {source : SourceText}
    {code : List Fragment} (accepted : invocation.expand declaration settings source = .ok code) :
    ∃ use, invocation.Fits declaration settings.targets use ∧
      code = use.fragments settings.unit declaration := by
  unfold expand at accepted
  split at accepted
  · rename_i use used
    cases accepted
    exact ⟨use, fits_of_use_eq_ok used, rfl⟩
  · cases accepted

theorem Fits.expand_eq_ok {settings : ExpansionSettings} {use : Use}
    (fits : invocation.Fits declaration settings.targets use) (source : SourceText) :
    invocation.expand declaration settings source = .ok (use.fragments settings.unit declaration) := by
  simp only [expand, fits.use_eq_ok]

theorem use_error (refused : invocation.use declaration targets = .error fault) :
    invocation.Blames fault.span ∧ ∀ name, fault.value.subView? = some name →
      invocation.name = .style ∧ declaration.kind = .protocol ∧
        invocation.FaultOfFirst fault name := by
  -- only the search through the sub-views gives a fault of this kind
  have silent (none : fault.value.subView? = none) : ∀ name, fault.value.subView? = some name →
      invocation.name = .style ∧ declaration.kind = .protocol ∧
        invocation.FaultOfFirst fault name := by
    intro name named
    rw [none] at named
    cases named
  cases name : invocation.name with
  | style =>
      rw [use_eq_of_style name] at refused
      split at refused
      · cases refused
        exact ⟨.inl rfl, name ▸ silent rfl⟩
      · rename_i kind
        cases read : invocation.subViews with
        | error other =>
            rw [read] at refused
            cases refused
            obtain ⟨blames, first⟩ := subViews_error read
            exact ⟨blames, fun subView named => ⟨rfl, not_not.mp kind, first subView named⟩⟩
        | ok names =>
            rw [read] at refused
            cases refused
  | registerStyle =>
      rw [use_eq_of_registerStyle name] at refused
      exact (namedUse_error refused).imp id (name ▸ silent)
  | convenienceModifier =>
      rw [use_eq_of_convenienceModifier name] at refused
      exact (namedUse_error refused).imp id (name ▸ silent)
  | component =>
      rw [use_eq_of_component name] at refused
      split at refused
      · cases refused
        exact ⟨.inl rfl, name ▸ silent rfl⟩
      · split at refused
        · cases refused
          exact ⟨.inl rfl, name ▸ silent rfl⟩
        · cases refused

/-- A list of names that do not fit is refused because of one of them. -/
theorem exists_subView_error {names : List Text} (name : invocation.name = .style)
    (kind : declaration.kind = .protocol) (takes : invocation.TakesList argument names)
    (other : ¬ SubViewsFit names) :
    ∃ fault subView, invocation.use declaration targets = .error fault ∧
      fault.value.subView? = some subView := by
  cases found : subViewFault? [] names with
  | none => exact absurd (subViewFault?_eq_none_iff.mp found) other
  | some cause =>
      obtain ⟨before, subView, after, -, -, flaw⟩ := subViewFault?_eq_some found
      refine ⟨invocation.faultAt argument cause, subView, ?_, by cases flaw <;> rfl⟩
      rw [use_eq_of_style name, if_neg (not_not.mpr kind), takes.subViews_eq, found]
      rfl

/-- An invocation is accepted exactly in its four forms, with what it is given. A refusal is a
diagnostic about the use of this attribute, at the invocation or at an argument. One that is due
to the name of a sub-view is due to the first that does not fit, and a list of sub-views that do
not fit is refused for that reason. -/
theorem use_accepts_exactly_the_forms (invocation : Invocation) (declaration : Declaration)
    (targets : Targets) :
    (∀ use, invocation.use declaration targets = .ok use ↔
      invocation.Fits declaration targets use) ∧
    (∀ fault, invocation.use declaration targets = .error fault →
      invocation.Blames fault.span ∧
      (∀ unit source, ∃ diagnostic,
        invocation.expand declaration ⟨targets, unit⟩ source = .error diagnostic ∧
        diagnostic.kind = .validation invocation.name (fault.value.message invocation.name) ∧
        diagnostic.span = fault.span) ∧
      ∀ name, fault.value.subView? = some name →
        invocation.name = .style ∧ declaration.kind = .protocol ∧
          invocation.FaultOfFirst fault name) ∧
    ∀ argument names, invocation.name = .style → declaration.kind = .protocol →
      invocation.TakesList argument names → ¬ SubViewsFit names →
      ∃ fault name, invocation.use declaration targets = .error fault ∧
        fault.value.subView? = some name := by
  refine ⟨fun use => ⟨fits_of_use_eq_ok, Fits.use_eq_ok⟩, fun fault refused => ?_, ?_⟩
  · obtain ⟨blames, first⟩ := use_error refused
    refine ⟨blames, fun unit source => ?_, first⟩
    exact ⟨UseFault.diagnostic fault invocation.name source "validate",
      by simp only [expand, refused], rfl, rfl⟩
  · exact fun argument names name kind takes other => exists_subView_error name kind takes other

def repeatedIcons : Invocation :=
  ⟨.style, [⟨some "subViews", .list ["İcon", "Title", "İcon"], ⟨7, 44⟩⟩], ⟨0, 45⟩⟩

theorem use_accepts_exactly_the_forms_of_repeated_icons :
    repeatedIcons.use ⟨"IconStyle", .protocol, [], none, ⟨46, 67⟩⟩ {} =
        .error ⟨.repeatedSubView "İcon", ⟨7, 44⟩⟩ ∧
      repeatedIcons.FaultOfFirst ⟨.repeatedSubView "İcon", ⟨7, 44⟩⟩ "İcon" := by
  have refused : repeatedIcons.use ⟨"IconStyle", .protocol, [], none, ⟨46, 67⟩⟩ {} =
      .error ⟨.repeatedSubView "İcon", ⟨7, 44⟩⟩ := by
    decide +kernel
  obtain ⟨-, -, first⟩ := (use_accepts_exactly_the_forms repeatedIcons
    ⟨"IconStyle", .protocol, [], none, ⟨46, 67⟩⟩ {}).2.1 _ refused
  exact ⟨refused, (first "İcon" rfl).2.2⟩

end Invocation

end StyleMacros
