import StyleMacros.Proofs.Expansion.Acceptance
import StyleMacros.Proofs.Expansion.Placement
import StyleMacros.Proofs.Source.MacroFree
import StyleMacros.Proofs.Source.Names

/-!
# What the generated text holds

The names from which text is generated are identifiers, the dotted name of a declaration apart. So
generated text holds no string and no comment, and its only attributes are `@Environment` and
`@ViewBuilder`, neither of which is a macro.
-/

set_option autoImplicit false

namespace StyleMacros

theorem DottedName.text_markless (path : DottedName) : path.text.Markless := by
  intro char member
  rcases path.mem_text member with continues | rfl
  · exact Text.notMem_codeMarks_of_isIdentifierContinue continues
  · decide

/-! ## Layout -/

mutual

def CodeLine.Calm : CodeLine → Prop
  | .line text => text.Calm
  | .blank => True
  | .opening text => text.Calm
  | .closing text => text.Calm
  | .block header body => header.Calm ∧ CodeLine.AllCalm body

def CodeLine.AllCalm : List CodeLine → Prop
  | [] => True
  | head :: rest => head.Calm ∧ CodeLine.AllCalm rest

end

theorem CodeLine.allCalm_iff {lines : List CodeLine} :
    CodeLine.AllCalm lines ↔ ∀ line ∈ lines, line.Calm := by
  induction lines with
  | nil => simp [CodeLine.AllCalm]
  | cons head rest inductionHypothesis => simp [CodeLine.AllCalm, inductionHypothesis]

section Layout

variable {unit : Text}

theorem indentedLine_calm (blank : unit.Calm) (level : Nat) {text : Text} (calm : text.Calm) :
    (indentedLine unit level text).Calm := by
  have indented : (indentation unit level).Calm := by
    apply Text.calm_flatten
    intro piece member
    rw [List.eq_of_mem_replicate member]
    exact blank
  unfold indentedLine
  split
  · decide
  · exact Text.calm_append.mpr ⟨Text.calm_append.mpr ⟨indented, calm⟩, by decide⟩

mutual

theorem CodeLine.write_calm (blank : unit.Calm) (level : Nat) :
    (line : CodeLine) → line.Calm → (CodeLine.write unit level line).1.Calm
  | .line text, calm => indentedLine_calm blank level calm
  | .blank, _ => (by decide : Text.Calm ['\n'])
  | .opening text, calm => indentedLine_calm blank level calm
  | .closing text, calm => indentedLine_calm blank (level - 1) calm
  | .block header body, calm => by
      obtain ⟨headerCalm, bodyCalm⟩ := calm
      have inner := CodeLine.writeAll_calm blank (level + 1) body bodyCalm
      have opening : (header ++ " \x7b".toList).Calm :=
        Text.calm_append.mpr ⟨headerCalm, by decide⟩
      rw [CodeLine.write]
      exact Text.calm_append.mpr ⟨Text.calm_append.mpr
        ⟨indentedLine_calm blank level opening, inner⟩, indentedLine_calm blank _ (by decide)⟩

theorem CodeLine.writeAll_calm (blank : unit.Calm) (level : Nat) :
    (lines : List CodeLine) → CodeLine.AllCalm lines → (CodeLine.writeAll unit level lines).1.Calm
  | [], _ => (by decide : Text.Calm [])
  | head :: rest, calm => by
      rw [CodeLine.writeAll]
      exact Text.calm_append.mpr ⟨CodeLine.write_calm blank level head calm.1,
        CodeLine.writeAll_calm blank _ rest calm.2⟩

end

theorem Code.text_calm (blank : unit.Calm) {code : Code} (calm : CodeLine.AllCalm code) :
    (code.text unit).Calm := by
  intro char member
  have inside : char ∈ (CodeLine.writeAll unit 0 code).1 :=
    List.mem_reverse.mp ((List.dropWhile_sublist _).subset (List.mem_reverse.mp member))
  exact CodeLine.writeAll_calm blank 0 code calm char inside

end Layout

/-! ## Fragments -/

/-- Every line of the fragment may stand anywhere without bringing a macro there. -/
def Fragment.MacroFree (fragment : Fragment) : Prop :=
  ∀ line ∈ fragment.text.lines, StyleMacros.MacroFree line

theorem Fragment.macroFree_of_calm {fragment : Fragment} (calm : fragment.text.Calm) :
    fragment.MacroFree := by
  intro line member
  apply StyleMacros.MacroFree.of_calm
  intro char inside
  exact calm char (Text.mem_of_mem_lines member inside)

theorem Fragment.macroFree_of_line {fragment : Fragment} (single : '\n' ∉ fragment.text)
    (free : StyleMacros.MacroFree fragment.text) : fragment.MacroFree := by
  intro line member
  rw [Text.lines_of_notMem single line member]
  exact free

/-! ## Derived names -/

section Names

variable {style : Text}

theorem configurationType_calm (name : style.Markless) : (configurationType style).Calm :=
  Text.calm_append.mpr ⟨name.calm, by decide⟩

theorem defaultType_calm (name : style.Markless) : (defaultType style).Calm :=
  Text.calm_append.mpr ⟨by decide, name.calm⟩

theorem erasedType_calm (name : style.Markless) : (erasedType style).Calm :=
  Text.calm_append.mpr ⟨by decide, name.calm⟩

theorem keyType_calm (name : style.Markless) : (keyType style).Calm :=
  Text.calm_append.mpr ⟨name.calm, by decide⟩

theorem propertyOf_calm (name : style.Markless) : (propertyOf style).Calm :=
  name.lowerFirst.calm

theorem lead_markless (access : Option AccessLevel) : (AccessLevel.lead access).Markless := by
  cases access with
  | none => decide
  | some level => cases level <;> decide

structure Slot.Calm (slot : Slot) : Prop where
  typeName : slot.typeName.Calm
  property : slot.property.Calm

theorem Slot.ofType_calm (name : style.Markless) : (Slot.ofType style).Calm :=
  ⟨name.calm, propertyOf_calm name⟩

end Names

/-! ## Environment and styles -/

section Style

variable {unit style : Text}

theorem accessorMember_macroFree (blank : unit.Calm) (name : style.Markless) :
    (accessorMember unit style).MacroFree := by
  apply Fragment.macroFree_of_calm
  apply Code.text_calm blank
  simp only [CodeLine.AllCalm, CodeLine.Calm, Text.calm_append, propertyOf_calm name,
    erasedType_calm name, keyType_calm name, and_true]
  and_intros <;> exact Text.calm_literal (by decide)

theorem modifierMember_macroFree (blank : unit.Calm) (name : style.Markless) :
    (modifierMember unit style).MacroFree := by
  apply Fragment.macroFree_of_calm
  apply Code.text_calm blank
  simp only [CodeLine.AllCalm, CodeLine.Calm, Text.calm_append, propertyOf_calm name,
    erasedType_calm name, name.calm, and_true]
  and_intros <;> exact Text.calm_literal (by decide)

theorem styleMembers_macroFree (name : style.Markless) :
    ∀ fragment ∈ styleMembers style, fragment.MacroFree := by
  intro fragment member
  simp only [styleMembers, List.mem_cons, List.not_mem_nil, or_false] at member
  rcases member with rfl | rfl | rfl
  · exact Fragment.macroFree_of_calm (by decide)
  · apply Fragment.macroFree_of_calm
    exact Text.calm_append.mpr ⟨by decide, configurationType_calm name⟩
  · have literal : "@ViewBuilder func makeBody(configuration: Self.Configuration) -> Self.Body".toList =
        _ := String.toList_ofList
    apply Fragment.macroFree_of_line
    · rw [literal]
      decide
    · rw [literal]
      have word : Text.isIdentifier ['V', 'i', 'e', 'w', 'B', 'u', 'i', 'l', 'd', 'e', 'r'] = true := by
        decide +kernel
      exact .bareAttribute word (by decide) (by decide)

theorem slotStack_calm {slots : List Slot} (calm : ∀ slot ∈ slots, slot.Calm) :
    (slotStack slots).Calm := by
  unfold slotStack
  split
  · exact (Text.calm_literal (by decide) : Text.Calm "VStack \x7b\x7d")
  · refine ⟨by decide, CodeLine.allCalm_iff.mpr ?_⟩
    intro line member
    obtain ⟨slot, slotMember, rfl⟩ := List.mem_map.mp member
    exact Text.calm_append.mpr ⟨by decide, (calm slot slotMember).property⟩

theorem configurationPeer_role (unit style : Text) (slots : List Slot) :
    (configurationPeer unit style slots).role = .peer := by
  simp only [configurationPeer]
  split <;> rfl

theorem configurationPeer_macroFree (blank : unit.Calm) (name : style.Markless)
    {slots : List Slot} (calm : ∀ slot ∈ slots, slot.Calm) :
    (configurationPeer unit style slots).MacroFree := by
  apply Fragment.macroFree_of_calm
  unfold configurationPeer
  simp only
  split
  · simp only [Text.calm_append, configurationType_calm name, and_true]
    and_intros <;> exact Text.calm_literal (by decide)
  · apply Code.text_calm blank
    refine ⟨⟨Text.calm_append.mpr ⟨by decide, configurationType_calm name⟩, ?_⟩, trivial⟩
    refine CodeLine.allCalm_iff.mpr fun line member => ?_
    rcases List.mem_append.mp member with wrapper | property
    · obtain ⟨slot, slotMember, rfl⟩ := List.mem_map.mp wrapper
      simp only [slotWrapper, CodeLine.AllCalm, CodeLine.Calm, Text.calm_append,
        (calm slot slotMember).typeName, and_true, true_and]
      and_intros <;> exact Text.calm_literal (by decide)
    · rcases List.mem_cons.mp property with rfl | property
      · trivial
      · obtain ⟨slot, slotMember, rfl⟩ := List.mem_map.mp property
        simp only [slotProperty, CodeLine.Calm, Text.calm_append,
          (calm slot slotMember).typeName, (calm slot slotMember).property, and_true]
        and_intros <;> exact Text.calm_literal (by decide)

theorem defaultPeer_macroFree (blank : unit.Calm) (name : style.Markless) {slots : List Slot}
    (calm : ∀ slot ∈ slots, slot.Calm) : (defaultPeer unit style slots).MacroFree := by
  apply Fragment.macroFree_of_calm
  apply Code.text_calm blank
  simp only [CodeLine.AllCalm, CodeLine.Calm, Text.calm_append, defaultType_calm name,
    name.calm, slotStack_calm calm, and_true, true_and]
  and_intros <;> exact Text.calm_literal (by decide)

theorem erasedPeer_macroFree (blank : unit.Calm) (name : style.Markless) :
    (erasedPeer unit style).MacroFree := by
  apply Fragment.macroFree_of_calm
  apply Code.text_calm blank
  simp only [CodeLine.AllCalm, CodeLine.Calm, Text.calm_append, erasedType_calm name,
    name.calm, and_true, true_and]
  and_intros <;> exact Text.calm_literal (by decide)

theorem keyPeer_macroFree (blank : unit.Calm) (name : style.Markless) :
    (keyPeer unit style).MacroFree := by
  apply Fragment.macroFree_of_calm
  apply Code.text_calm blank
  simp only [CodeLine.AllCalm, CodeLine.Calm, Text.calm_append, erasedType_calm name,
    defaultType_calm name, keyType_calm name, and_true]
  and_intros <;> exact Text.calm_literal (by decide)

theorem styleFragments_macroFree (blank : unit.Calm) (name : style.Markless)
    {subViews : List Text} (subViewNames : ∀ subView ∈ subViews, subView.Markless) :
    ∀ fragment ∈ styleFragments unit style subViews, fragment.MacroFree := by
  have slots : ∀ slot ∈ subViews.map Slot.ofType, slot.Calm := by
    intro slot member
    obtain ⟨subView, subViewMember, rfl⟩ := List.mem_map.mp member
    exact Slot.ofType_calm (subViewNames subView subViewMember)
  intro fragment member
  rcases List.mem_append.mp member with member | member
  · exact styleMembers_macroFree name fragment member
  · simp only [List.mem_cons, List.not_mem_nil, or_false] at member
    rcases member with rfl | rfl | rfl | rfl
    · exact configurationPeer_macroFree blank name slots
    · exact defaultPeer_macroFree blank name slots
    · exact erasedPeer_macroFree blank name
    · exact keyPeer_macroFree blank name

end Style

/-! ## Components -/

theorem styleProperty_macroFree {property access : Text} (plain : property.Markless)
    (single : ',' ∉ property) (lead : access.Markless) :
    '\n' ∉ ("@Environment(\\." ++ property ++ ") " ++ access ++ "var style" : Text) ∧
      MacroFree ("@Environment(\\." ++ property ++ ") " ++ access ++ "var style") := by
  have opening : "@Environment(\\.".toList = '@' :: ("Environment" ++ ['(', '\\', '.']) := by decide
  have closing : ") ".toList = [')', ' '] := by decide
  have words : Text.Calm (' ' :: (access ++ "var style")) :=
    Text.calm_append.mpr ⟨(by decide : Text.Calm [' ']), Text.calm_append.mpr ⟨lead.calm, by decide⟩⟩
  have free := MacroFree.keyPathAttribute (by decide +kernel : Text.isIdentifier "Environment" = true)
    (by decide) words plain single
  constructor
  · have inside : '\n' ∉ property := fun member => plain _ member (by decide)
    have feedless : '\n' ∉ access := fun member => lead _ member (by decide)
    simp +decide only [List.mem_append, inside, feedless, or_false, not_false_eq_true]
  · rw [opening, closing]
    simpa using free

theorem componentFragments_macroFree {unit : Text} (blank : unit.Calm) {component : Declaration}
    (name : component.name.Markless) (single : ',' ∉ component.name)
    (parameters : ∀ parameter ∈ component.genericParameters, parameter.Markless) :
    ∀ fragment ∈ componentFragments unit component, fragment.MacroFree := by
  have slots : ∀ slot ∈ componentSlots component, slot.Calm := by
    intro slot member
    obtain ⟨parameter, parameterMember, rfl⟩ := List.mem_map.mp member
    exact Slot.ofType_calm (parameters parameter parameterMember)
  have lead := lead_markless component.access
  have access := lead.calm
  have styleName : (componentStyle component.name).Markless := name.append (by decide)
  have property : (componentStyleProperty component.name).Markless :=
    name.lowerFirst.append (by decide)
  have onePath : ',' ∉ componentStyleProperty component.name := by
    intro member
    rcases List.mem_append.mp member with inside | ending
    · exact Text.notMem_lowerFirst (by decide) single inside
    · exact absurd ending (by decide)
  intro fragment member
  simp only [componentFragments, List.mem_append, List.mem_cons, List.not_mem_nil, or_false,
    List.mem_map] at member
  rcases member with ((rfl | rfl) | ⟨slot, slotMember, rfl⟩) | rfl
  · obtain ⟨single, free⟩ := styleProperty_macroFree property onePath lead
    exact Fragment.macroFree_of_line single free
  · apply Fragment.macroFree_of_calm
    simp only [Text.calm_append, access, configurationType_calm styleName, and_true, true_and]
    exact Text.calm_literal (by decide)
  · apply Fragment.macroFree_of_calm
    simp only [slotClosure, Text.calm_append, access, (slots slot slotMember).property,
      (slots slot slotMember).typeName, and_true, true_and]
    and_intros <;> exact Text.calm_literal (by decide)
  · apply Fragment.macroFree_of_calm
    apply Code.text_calm blank
    have arguments : (Text.join ", " ((componentSlots component).map slotArgument)).Calm := by
      apply Text.calm_join (by decide)
      intro piece member
      obtain ⟨slot, slotMember, rfl⟩ := List.mem_map.mp member
      simp only [slotArgument, Text.calm_append, (slots slot slotMember).property,
        (slots slot slotMember).typeName, and_true, true_and]
      and_intros <;> exact Text.calm_literal (by decide)
    simp only [CodeLine.AllCalm, CodeLine.Calm, Text.calm_append, access, arguments,
      and_true, true_and]
    and_intros <;> exact Text.calm_literal (by decide)

/-! ## Invocations -/

/-- The names that a use brings along are identifiers. -/
def Use.Named : Use → Prop
  | .style subViews => ∀ subView ∈ subViews, subView.isIdentifier = true
  | .registerStyle name => name.isIdentifier = true
  | .convenienceModifier name => name.isIdentifier = true
  | .component => True

theorem Invocation.Fits.named {invocation : Invocation} {declaration : Declaration}
    {targets : Targets} {use : Use} (fits : invocation.Fits declaration targets use) : use.Named := by
  cases fits with
  | style name kind takes fit => exact fit.identifiers
  | registerStyle name kind takes word => exact word
  | convenienceModifier name kind takes word => exact word
  | component name kind bare => trivial

/-- Nothing that an expansion adds to a declaration brings a macro with it. -/
theorem Use.fragments_macroFree {unit : Text} (blank : unit.Calm) {declaration : Declaration}
    (name : declaration.name.Markless) (single : ',' ∉ declaration.name)
    (parameters : ∀ parameter ∈ declaration.genericParameters, parameter.Markless) {use : Use}
    (named : use.Named) : ∀ fragment ∈ use.fragments unit declaration, fragment.MacroFree := by
  intro fragment member
  cases use with
  | style subViews =>
      refine styleFragments_macroFree blank name ?_ fragment member
      exact fun subView inside => Text.markless_of_isIdentifier (named subView inside)
  | registerStyle style =>
      cases List.mem_singleton.mp member
      exact accessorMember_macroFree blank (Text.markless_of_isIdentifier named)
  | convenienceModifier style =>
      cases List.mem_singleton.mp member
      exact modifierMember_macroFree blank (Text.markless_of_isIdentifier named)
  | component => exact componentFragments_macroFree blank name single parameters fragment member

/-! ## Sites -/

theorem exists_expansion_of_mem_outcomes {annotated : AnnotatedDeclaration}
    {settings : ExpansionSettings} {source : SourceText} {fragment : Fragment}
    (member : fragment ∈ (SiteExpansion.outcomes annotated settings source).1) :
    ∃ invocation ∈ annotated.invocations, ∃ fragments,
      invocation.expand annotated.declaration settings source = .ok fragments ∧
        fragment ∈ fragments := by
  obtain ⟨declaration, invocations⟩ := annotated
  unfold SiteExpansion.outcomes at member
  simp only at member ⊢
  induction invocations with
  | nil => cases member
  | cons invocation later inductionHypothesis =>
      rw [List.foldr_cons] at member
      cases expanded : invocation.expand declaration settings source with
      | error fault =>
          rw [expanded] at member
          obtain ⟨found, inside, rest⟩ := inductionHypothesis member
          exact ⟨found, List.mem_cons_of_mem invocation inside, rest⟩
      | ok fragments =>
          rw [expanded] at member
          rcases List.mem_append.mp member with member | member
          · exact ⟨invocation, List.mem_cons_self, fragments, expanded, member⟩
          · obtain ⟨found, inside, rest⟩ := inductionHypothesis member
            exact ⟨found, List.mem_cons_of_mem invocation inside, rest⟩

theorem mem_outcomes_of_expand {annotated : AnnotatedDeclaration} {settings : ExpansionSettings}
    {source : SourceText} {invocation : Invocation} {code : List Fragment}
    (inside : invocation ∈ annotated.invocations)
    (expanded : invocation.expand annotated.declaration settings source = .ok code) :
    ∀ fragment ∈ code, fragment ∈ (SiteExpansion.outcomes annotated settings source).1 := by
  obtain ⟨declaration, invocations⟩ := annotated
  intro fragment member
  unfold SiteExpansion.outcomes
  simp only at inside expanded ⊢
  induction invocations with
  | nil => cases inside
  | cons first later inductionHypothesis =>
      rw [List.foldr_cons]
      rcases List.mem_cons.mp inside with rfl | inside
      · rw [expanded]
        exact List.mem_append_left _ member
      · have found := inductionHypothesis inside
        cases first.expand declaration settings source with
        | error fault => exact found
        | ok fragments => exact List.mem_append_right fragments found

/-- What a site adds comes from uses of its declaration. -/
theorem Site.exists_use_of_mem_fragments {site : Site} {settings : ExpansionSettings}
    {source : SourceText} {fragment : Fragment}
    (member : fragment ∈ (site.expand settings source).fragments) :
    ∃ written use, site.target = .declaration written ∧ use.Named ∧
      fragment ∈ Use.fragments settings.unit written.declaration use := by
  unfold Site.expand at member
  split at member
  · cases member
  · rename_i annotated success
    obtain ⟨written, target, declared⟩ := Site.annotated_success_yields_declaration success
    obtain ⟨invocation, _, fragments, expanded, inside⟩ := exists_expansion_of_mem_outcomes member
    obtain ⟨use, fits, rfl⟩ := Invocation.exists_fits_of_expand expanded
    rw [declared] at fits inside
    exact ⟨written, use, target, fits.named, inside⟩

/-- No text that is generated for a source text brings a macro with it. -/
theorem FileExpansion.fragments_macroFree {source : SourceText} {settings : ExpansionSettings}
    (blank : settings.unit.Calm) {site : SiteExpansion}
    (member : site ∈ (FileExpansion.ofSource source settings).sites) :
    ∀ fragment ∈ site.fragments, fragment.MacroFree := by
  intro fragment inside
  obtain ⟨read, readMember, rfl⟩ := List.mem_map.mp member
  obtain ⟨written, use, target, named, generated⟩ := Site.exists_use_of_mem_fragments inside
  obtain ⟨⟨path, pathText⟩, parameters⟩ := readSites_named readMember target
  refine Use.fragments_macroFree blank ?_ ?_ ?_ named fragment generated
  · have plain : written.name.Markless := by
      rw [← pathText]
      exact path.text_markless
    exact plain
  · have single : ',' ∉ written.name := by
      rw [← pathText]
      exact fun member => path.ne_of_mem_text member (by decide) (by decide) rfl
    exact single
  · intro parameter parameterMember
    obtain ⟨found, foundMember, rfl⟩ := List.mem_map.mp parameterMember
    exact Text.markless_of_isIdentifier (parameters found foundMember)

section Source

variable {source : SourceText} {settings : ExpansionSettings} {site : SiteExpansion}
  (member : site ∈ (FileExpansion.ofSource source settings).sites) {declaration : Declaration}
  (declared : site.declaration = some declaration)

include member declared in
theorem FileExpansion.declaration_named : (∃ path : DottedName, path.text = declaration.name) ∧
    ∀ parameter ∈ declaration.genericParameters, parameter.isIdentifier = true := by
  obtain ⟨read, readMember, rfl⟩ := List.mem_map.mp member
  obtain ⟨written, target, rfl⟩ := Site.expand_declaration declared
  obtain ⟨name, parameters⟩ := readSites_named readMember target
  refine ⟨name, fun parameter parameterMember => ?_⟩
  obtain ⟨found, foundMember, rfl⟩ := List.mem_map.mp parameterMember
  exact parameters found foundMember

include member declared in
theorem FileExpansion.mem_fragments {invocation : Invocation} (inside : invocation ∈ site.invocations)
    {code : List Fragment} (expanded : invocation.expand declaration settings source = .ok code) :
    ∀ fragment ∈ code, fragment ∈ site.fragments := by
  obtain ⟨read, -, rfl⟩ := List.mem_map.mp member
  unfold Site.expand at declared inside ⊢
  cases annotated : read.annotated with
  | error fault =>
      rw [annotated] at declared
      cases declared
  | ok found =>
      simp only [annotated] at declared inside ⊢
      cases Option.some.inj declared
      exact mem_outcomes_of_expand inside expanded

theorem FileExpansion.exists_site_of_head? (expansion : FileExpansion) (declaration : Declaration)
    (invocation : Invocation)
    (first : (expansion.sites.head?.map fun site => (site.declaration, site.invocations)) =
      some (some declaration, [invocation])) :
    ∃ site ∈ expansion.sites, site.declaration = some declaration ∧ invocation ∈ site.invocations := by
  obtain ⟨site, head, parts⟩ := Option.map_eq_some_iff.mp first
  obtain ⟨declared, invocations⟩ := Prod.mk.inj parts
  exact ⟨site, List.mem_of_mem_head? head, declared, invocations ▸ List.mem_singleton_self invocation⟩

end Source

end StyleMacros
