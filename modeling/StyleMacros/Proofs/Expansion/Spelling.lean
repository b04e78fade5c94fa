import StyleMacros.Proofs.Expansion.DeclaredNames
import StyleMacros.Settings

/-!
# Which names in generated code are identifiers

Generated declarations are named after names of the source text. Those that an attribute is given
have been checked, and those of generic parameters are read as identifiers. The name of a declaration
is read as a dotted name, which is what an extension needs, and nothing else is asked of it.
-/

set_option autoImplicit false

namespace StyleMacros

/-! ## Names that are given -/

/-- The names of the source text from which the fragments of a use make names of their own. -/
def Use.givenNames (declaration : Declaration) : Use → List Text
  | .style subViews => declaration.name :: subViews
  | .registerStyle name => [name]
  | .convenienceModifier name => [name]
  | .component => declaration.name :: declaration.genericParameters

/-- The names that generated declarations have whatever they are generated from. -/
def fixedNames : List Text :=
  ["Body", "Configuration", "makeBody", "_makeBody", "defaultValue", "style", "body"]

def derivedNames (given : Text) : List Text :=
  [given, propertyOf given, configurationType given, defaultType given, erasedType given,
    keyType given]

theorem isIdentifier_of_mem_fixedNames : ∀ name ∈ fixedNames, name.isIdentifier = true := by
  decide

theorem isIdentifier_of_mem_derivedNames {given : Text} (word : given.isIdentifier = true) :
    ∀ name ∈ derivedNames given, name.isIdentifier = true := by
  have continues : ∀ char ∈ given, isIdentifierContinue char = true := fun char member =>
    Text.isIdentifierContinue_of_mem word member
  simp only [derivedNames, List.forall_mem_cons, List.not_mem_nil, false_imp_iff, implies_true,
    and_true]
  exact ⟨word, Text.isIdentifier_lowerFirst word, Text.isIdentifier_append word (by decide),
    Text.isIdentifier_append (by decide) continues,
    Text.isIdentifier_append (by decide) continues,
    Text.isIdentifier_append word (by decide)⟩

/-- Every declared name is a fixed one or made from a name that is given. -/
theorem Use.made_of_mem_declaredNames (declaration : Declaration) (use : Use) :
    ∀ name ∈ use.declaredNames declaration,
      name ∈ fixedNames ∨ ∃ given ∈ use.givenNames declaration, name ∈ derivedNames given := by
  have fixed {name : Text} (listed : name ∈ fixedNames) :
      name ∈ fixedNames ∨ ∃ given ∈ use.givenNames declaration, name ∈ derivedNames given :=
    .inl listed
  have made {given name : Text} (inside : given ∈ use.givenNames declaration)
      (derived : name ∈ derivedNames given) :
      name ∈ fixedNames ∨ ∃ given ∈ use.givenNames declaration, name ∈ derivedNames given :=
    .inr ⟨given, inside, derived⟩
  have property (given : Text) : given.lowerFirst ∈ derivedNames given :=
    List.mem_cons_of_mem _ List.mem_cons_self
  cases use with
  | style subViews =>
      have own {name : Text} (derived : name ∈ derivedNames declaration.name) :=
        made List.mem_cons_self derived
      have inside {subView : Text} (member : subView ∈ subViews) :
          subView ∈ (Use.style subViews).givenNames declaration :=
        List.mem_cons_of_mem declaration.name member
      simp only [Use.declaredNames, List.forall_mem_append, List.forall_mem_cons,
        List.forall_mem_flatMap, List.forall_mem_map]
      refine ⟨⟨⟨fixed (by decide), fixed (by decide), fixed (by decide), by simp⟩,
        own (by simp [derivedNames]), ?_, ?_⟩, ?_⟩
      · exact fun subView member => ⟨made (inside member) List.mem_cons_self, fixed (by decide), by simp⟩
      · exact fun subView member => made (inside member) (property subView)
      · exact ⟨own (by simp [derivedNames]), fixed (by decide), own (by simp [derivedNames]),
          fixed (by decide), fixed (by decide), own (by simp [derivedNames]), fixed (by decide), by simp⟩
  | registerStyle name =>
      exact List.forall_mem_singleton.mpr (made List.mem_cons_self (property name))
  | convenienceModifier name =>
      exact List.forall_mem_singleton.mpr (made List.mem_cons_self (property name))
  | component =>
      simp only [Use.declaredNames, List.forall_mem_append, List.forall_mem_cons, List.forall_mem_map]
      refine ⟨⟨⟨fixed (by decide), fixed (by decide), by simp⟩, ?_⟩, fixed (by decide), by simp⟩
      exact fun parameter member => made (List.mem_cons_of_mem _ member) (property parameter)

/-! ## Dotted names -/

theorem Text.notMem_of_isIdentifier {name : Text} (word : name.isIdentifier = true) : '.' ∉ name :=
  fun member => notMem_punctuation_of_isIdentifierContinue
    (Text.isIdentifierContinue_of_mem word member) (by decide)

theorem DottedName.isIdentifier_text_iff (path : DottedName) :
    path.text.isIdentifier = true ↔ '.' ∉ path.text := by
  refine ⟨Text.notMem_of_isIdentifier, fun undotted => ?_⟩
  cases members : path.members with
  | nil =>
      rw [DottedName.text, members]
      exact (List.append_nil path.first).symm ▸ path.first_isIdentifier
  | cons word others =>
      refine absurd ?_ undotted
      rw [DottedName.text, members, memberText_cons]
      exact List.mem_append_right _ List.mem_cons_self

/-! ## Accepted uses -/

section Uses

variable {declaration : Declaration} {use : Use} (named : use.Named)
  (parameters : ∀ parameter ∈ declaration.genericParameters, parameter.isIdentifier = true)

include named parameters in
/-- Only the name of the declaration may be something else than an identifier. -/
theorem Use.isIdentifier_of_mem_givenNames : ∀ given ∈ use.givenNames declaration,
    given = declaration.name ∨ given.isIdentifier = true := by
  cases use with
  | style subViews =>
      exact List.forall_mem_cons.mpr ⟨.inl rfl, fun subView member => .inr (named subView member)⟩
  | registerStyle name => exact List.forall_mem_singleton.mpr (.inr named)
  | convenienceModifier name => exact List.forall_mem_singleton.mpr (.inr named)
  | component =>
      exact List.forall_mem_cons.mpr
        ⟨.inl rfl, fun parameter member => .inr (parameters parameter member)⟩

theorem Use.isIdentifier_of_mem_declaredNames
    (words : ∀ given ∈ use.givenNames declaration, given.isIdentifier = true) :
    ∀ name ∈ use.declaredNames declaration, name.isIdentifier = true := by
  intro name member
  rcases use.made_of_mem_declaredNames declaration name member with fixed | ⟨given, inside, derived⟩
  · exact isIdentifier_of_mem_fixedNames name fixed
  · exact isIdentifier_of_mem_derivedNames (words given inside) name derived

include parameters in
theorem isIdentifier_of_mem_componentNames :
    ∀ name ∈ Use.component.declaredNames declaration, name.isIdentifier = true := by
  simp only [Use.declaredNames, List.forall_mem_append, List.forall_mem_map]
  exact ⟨⟨by decide, fun parameter member =>
    Text.isIdentifier_lowerFirst (parameters parameter member)⟩, by decide⟩

end Uses

/-- Generated declarations have fixed names and names that are made from names of the source text.
Where an invocation is accepted, all of these but the name of its declaration are identifiers. The
name of a protocol or struct is one too exactly if there is no dot in it, and what is declared next
to a protocol with a dot in its name has a dot in its name as well. -/
theorem given_names_are_identifiers_iff {settings : Settings} {source : SourceText}
    {site : SiteExpansion}
    (member : site ∈ (FileExpansion.ofSource source settings.expansion).sites)
    {declaration : Declaration} (declared : site.declaration = some declaration)
    {invocation : Invocation} {code : List Fragment}
    (accepted : invocation.expand declaration settings.expansion source = .ok code) :
    ∃ use, invocation.Fits declaration settings.targets use ∧
      (∀ fragment ∈ code, ∀ name ∈ fragment.declaredNames,
        name ∈ fixedNames ∨ ∃ given ∈ use.givenNames declaration, name ∈ derivedNames given) ∧
      (∀ given ∈ use.givenNames declaration,
        given = declaration.name ∨ given.isIdentifier = true) ∧
      ((∀ given ∈ use.givenNames declaration, given.isIdentifier = true) ↔
        (invocation.name ∈ [.style, .component] → '.' ∉ declaration.name)) ∧
      ((∀ fragment ∈ code, ∀ name ∈ fragment.declaredNames, name.isIdentifier = true) ↔
        (invocation.name = .style → '.' ∉ declaration.name)) := by
  obtain ⟨⟨path, pathText⟩, words⟩ := FileExpansion.declaration_named member declared
  obtain ⟨use, fits, rfl⟩ := Invocation.exists_fits_of_expand accepted
  have undotted : declaration.name.isIdentifier = true ↔ '.' ∉ declaration.name :=
    pathText ▸ path.isIdentifier_text_iff
  have names := use.declaredNames_fragments (indentUnit_spaces settings.indentWidth)
    (pathText ▸ path.text_unbroken)
    (fun parameter inside => Text.name_of_isIdentifier (words parameter inside)) fits.named
  have declares (Kind : Text → Prop) :
      (∀ fragment ∈ use.fragments settings.expansion.unit declaration,
        ∀ name ∈ fragment.declaredNames, Kind name) ↔
      ∀ name ∈ use.declaredNames declaration, Kind name := by
    rw [← names]
    exact List.forall_mem_flatMap.symm
  refine ⟨use, fits, (declares _).mpr (use.made_of_mem_declaredNames declaration),
    Use.isIdentifier_of_mem_givenNames fits.named words, ?_⟩
  rw [declares]
  cases fits with
  | @style argument subViews name kind takes fit =>
      have given : (∀ given ∈ (Use.style subViews).givenNames declaration, given.isIdentifier = true) ↔
          '.' ∉ declaration.name :=
        (List.forall_mem_cons.trans (and_iff_left fit.identifiers)).trans undotted
      refine ⟨given.trans (by simp [name]), fun all _ dot => ?_, fun clear => ?_⟩
      · have word := all (configurationType declaration.name) (by simp [Use.declaredNames])
        exact Text.notMem_of_isIdentifier word (List.mem_append_left _ dot)
      · exact Use.isIdentifier_of_mem_declaredNames (given.mpr (clear name))
  | @registerStyle argument style name kind takes word =>
      have given : ∀ given ∈ (Use.registerStyle style).givenNames declaration,
          given.isIdentifier = true := List.forall_mem_singleton.mpr word
      exact ⟨iff_of_true given (by simp [name]),
        iff_of_true (Use.isIdentifier_of_mem_declaredNames given) (by simp [name])⟩
  | @convenienceModifier argument style name kind takes word =>
      have given : ∀ given ∈ (Use.convenienceModifier style).givenNames declaration,
          given.isIdentifier = true := List.forall_mem_singleton.mpr word
      exact ⟨iff_of_true given (by simp [name]),
        iff_of_true (Use.isIdentifier_of_mem_declaredNames given) (by simp [name])⟩
  | component name kind bare =>
      have given : (∀ given ∈ Use.component.givenNames declaration, given.isIdentifier = true) ↔
          '.' ∉ declaration.name :=
        (List.forall_mem_cons.trans (and_iff_left words)).trans undotted
      exact ⟨given.trans (by simp [name]),
        iff_of_true (isIdentifier_of_mem_componentNames words) (by simp [name])⟩

def protocolSource (name : Text) : SourceText :=
  ⟨"Style.swift", "@Style(subViews: [\"Icon\"])\nprotocol " ++ name ++ " \x7b\x7d\n"⟩

def iconStyle : Invocation :=
  ⟨.style, [⟨some "subViews", .list ["Icon"], ⟨7, 25⟩⟩], ⟨0, 26⟩⟩

theorem iconStyle_fits (name : Text) (span : Span) :
    iconStyle.Fits ⟨name, .protocol, [], none, span⟩ (Settings.expansion {}).targets
      (.style ["Icon"]) :=
  .style rfl rfl ⟨rfl, .inr rfl, rfl⟩
    ⟨by decide, by decide, by decide⟩

theorem given_names_are_identifiers_of_card_style :
    ∃ site ∈ (FileExpansion.ofSource (protocolSource "CardStyle") (Settings.expansion {})).sites,
      ∃ declaration, site.declaration = some declaration ∧ iconStyle ∈ site.invocations ∧
        ∃ code use, iconStyle.expand declaration (Settings.expansion {})
            (protocolSource "CardStyle") = .ok code ∧
          iconStyle.Fits declaration {} use ∧
          (∀ given ∈ use.givenNames declaration, given.isIdentifier = true) ∧
          ∀ fragment ∈ code, ∀ name ∈ fragment.declaredNames, name.isIdentifier = true := by
  obtain ⟨site, member, declared, inside⟩ := FileExpansion.exists_site_of_head?
    (FileExpansion.ofSource (protocolSource "CardStyle") (Settings.expansion {}))
    ⟨"CardStyle", .protocol, [], none, ⟨27, 48⟩⟩ iconStyle (by decide +kernel)
  have expanded := (iconStyle_fits "CardStyle" ⟨27, 48⟩).expand_eq_ok (protocolSource "CardStyle")
  obtain ⟨use, fits, -, -, given, declares⟩ := given_names_are_identifiers_iff member declared expanded
  exact ⟨site, member, _, declared, inside, _, use, expanded, fits,
    given.mpr fun _ => by decide, declares.mpr fun _ => by decide⟩

/-- A protocol with a dot in its name is accepted, and its configuration has a dot in its name. -/
theorem dotted_name_given_to_declarations :
    ∃ site ∈ (FileExpansion.ofSource (protocolSource "Card.Style") (Settings.expansion {})).sites,
      ∃ declaration, site.declaration = some declaration ∧ iconStyle ∈ site.invocations ∧
        ∃ code use, iconStyle.expand declaration (Settings.expansion {})
            (protocolSource "Card.Style") = .ok code ∧
          iconStyle.Fits declaration {} use ∧
          (∃ given ∈ use.givenNames declaration, given.isIdentifier = false) ∧
          ∃ fragment ∈ code, ∃ name ∈ fragment.declaredNames, name.isIdentifier = false := by
  obtain ⟨site, member, declared, inside⟩ := FileExpansion.exists_site_of_head?
    (FileExpansion.ofSource (protocolSource "Card.Style") (Settings.expansion {}))
    ⟨"Card.Style", .protocol, [], none, ⟨27, 49⟩⟩ iconStyle (by decide +kernel)
  have fits := iconStyle_fits "Card.Style" ⟨27, 49⟩
  exact ⟨site, member, _, declared, inside, _, _, fits.expand_eq_ok _, fits,
    ⟨"Card.Style", List.mem_cons_self, by decide +kernel⟩, by decide +kernel⟩

end StyleMacros
