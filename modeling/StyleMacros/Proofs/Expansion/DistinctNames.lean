import StyleMacros.Proofs.Expansion.DeclaredNames
import StyleMacros.Settings

/-!
# Whether generated names are distinct

The configuration of a style declares a type and a property for each sub-view, and what is checked
of the sub-views keeps all of them apart. A component declares a property for each generic parameter
next to three names of its own, and nothing is checked of the parameters: the names are distinct
exactly if the parameters keep out of the way by themselves.
-/

set_option autoImplicit false

namespace StyleMacros

/-! ## Names in a configuration -/

/-- The names that the lines of an outline declare in front of which one brace is open. -/
def outermostNames (outline : List (Nat × Text)) : List Text :=
  outline.filterMap fun line => if line.1 = 1 then declaredName? line.2 else none

/-- The names that a text declares directly inside the brace that is open in front of it. -/
def namesInside (text : Text) : List Text :=
  outermostNames (outlineFrom 1 text.lines)

theorem outermostNames_append (front back : List (Nat × Text)) :
    outermostNames (front ++ back) = outermostNames front ++ outermostNames back :=
  List.filterMap_append

theorem outermostNames_flatMap {slots : List Slot} {outline : Slot → List (Nat × Text)}
    {name : Slot → Text} (each : ∀ slot ∈ slots, outermostNames (outline slot) = [name slot]) :
    outermostNames (slots.flatMap outline) = slots.map name := by
  induction slots with
  | nil => rfl
  | cons first others inductionHypothesis =>
      rw [List.flatMap_cons, outermostNames_append, each first List.mem_cons_self,
        inductionHypothesis fun slot member => each slot (List.mem_cons_of_mem first member)]
      rfl

section Slots

variable {slot : Slot} (named : slot.Named)

include named in
/-- What stands inside the nested type does not count. -/
theorem outermostNames_slotWrapper :
    outermostNames (CodeLine.outline 1 (slotWrapper slot)) = [slot.typeName] := by
  have deeper : outermostNames wrapperBody = [] := rfl
  rw [outline_slotWrapper, outermostNames, List.filterMap_cons, if_pos rfl,
    declaredName?_slotWrapper named]
  exact congrArg _ deeper

include named in
theorem outermostNames_slotProperty :
    outermostNames (CodeLine.outline 1 (slotProperty slot)) = [slot.property] := by
  rw [slotProperty, CodeLine.outline, outermostNames, List.filterMap_cons, if_pos rfl,
    declaredName?_slotProperty named]
  rfl

end Slots

/-- Whatever the name of the style is, its configuration declares the types of its slots and then
their properties. -/
theorem namesInside_configurationPeer {unit : Text} (blank : ∀ char ∈ unit, char = ' ')
    (style : Text) {slots : List Slot} (named : ∀ slot ∈ slots, slot.Named) :
    ∃ inside, (configurationPeer unit style slots).text =
        "public struct " ++ configurationType style ++ " \x7b" ++ inside ∧
      namesInside inside = slots.map Slot.typeName ++ slots.map Slot.property := by
  by_cases empty : slots = []
  · subst empty
    refine ⟨"\x7d", ?_, rfl⟩
    rw [configurationPeer_nil, List.append_assoc _ " \x7b".toList]
    rfl
  · have tidy := configurationBody_tidy named
    obtain ⟨inside, text, outline⟩ := Code.outlineFrom_inside blank
      ("public struct " ++ configurationType style) tidy
    refine ⟨inside, ?_, ?_⟩
    · rw [configurationPeer_of_ne_nil empty]
      exact text
    · have wrappers := outermostNames_flatMap fun slot member =>
        outermostNames_slotWrapper (named slot member)
      have properties := outermostNames_flatMap fun slot member =>
        outermostNames_slotProperty (named slot member)
      have blankLine : outermostNames [(1, [])] = [] := rfl
      have closing : outermostNames [(1, ['\x7d'])] = [] := rfl
      rw [namesInside, outline, outlineAll_configurationBody, configurationBody,
        ← List.singleton_append, ← List.singleton_append (l := _ ++ _)]
      simp only [outermostNames_append, wrappers, properties, blankLine, closing, List.nil_append,
        List.append_nil]

/-! ## Sub-views -/

theorem SubViewsFit.nodup_append_map {names : List Text} (fit : SubViewsFit names) :
    (names ++ names.map Text.lowerFirst).Nodup := by
  refine List.nodup_append.mpr ⟨fit.apart.of_map, fit.apart, ?_⟩
  intro name member property lowered same
  obtain ⟨other, otherMember, rfl⟩ := List.mem_map.mp lowered
  have unchanged : name.lowerFirst = name := by
    rw [same, Text.lowerFirst_lowerFirst]
  exact fit.changed name member unchanged

/-- An accepted `@Style` declares the name of each sub-view and the name in lower case once, directly
inside its configuration, which is the first of the declarations next to the protocol. -/
theorem configuration_declares_distinct_names {settings : Settings} {source : SourceText}
    {invocation : Invocation} {declaration : Declaration} {code : List Fragment}
    (style : invocation.name = .style)
    (accepted : invocation.expand declaration settings.expansion source = .ok code) :
    ∃ argument subViews configuration inside, invocation.TakesList argument subViews ∧
      (code.filter Fragment.isPeer).head? = some configuration ∧
      configuration.text =
        "public struct " ++ configurationType declaration.name ++ " \x7b" ++ inside ∧
      namesInside inside = subViews ++ subViews.map Text.lowerFirst ∧
      (namesInside inside).length = 2 * subViews.length ∧ (namesInside inside).Nodup := by
  obtain ⟨use, fits, rfl⟩ := Invocation.exists_fits_of_expand accepted
  cases fits with
  | registerStyle name kind takes word => cases style.symm.trans name
  | convenienceModifier name kind takes word => cases style.symm.trans name
  | component name kind bare => cases style.symm.trans name
  | @style argument subViews name kind takes fit =>
      have named : ∀ slot ∈ subViews.map Slot.ofType, slot.Named := by
        intro slot member
        obtain ⟨subView, inside, rfl⟩ := List.mem_map.mp member
        exact Slot.ofType_named (Text.name_of_isIdentifier (fit.identifiers subView inside))
      obtain ⟨inside, text, names⟩ := namesInside_configurationPeer
        (indentUnit_spaces settings.indentWidth) declaration.name named
      have split : namesInside inside = subViews ++ subViews.map Text.lowerFirst := by
        rw [names, List.map_map, List.map_map]
        exact congrArg (· ++ _) (List.map_id subViews)
      refine ⟨argument, subViews, configurationPeer (indentUnit settings.indentWidth)
        declaration.name (subViews.map Slot.ofType), inside, takes, ?_, text, split, ?_, ?_⟩
      · exact congrArg List.head? (styleFragments_peers _ declaration.name subViews)
      · rw [split, List.length_append, List.length_map]
        omega
      · rw [split]
        exact fit.nodup_append_map

/-- Two sub-views, one of which gets longer in lower case. -/
def iconTitle : Invocation :=
  ⟨.style, [⟨none, .list ["İcon", "Title"], ⟨7, 24⟩⟩], ⟨0, 25⟩⟩

theorem configuration_of_icon_title_declares_distinct_names :
    ∃ code, iconTitle.expand ⟨"Card", .protocol, [], none, ⟨26, 42⟩⟩ (Settings.expansion {})
        ⟨[], []⟩ = .ok code ∧
      ∃ configuration inside, (code.filter Fragment.isPeer).head? = some configuration ∧
        configuration.text = "public struct CardConfiguration \x7b" ++ inside ∧
        namesInside inside = ["İcon".toList, "Title", "i̇con", "title"] ∧
        (namesInside inside).Nodup := by
  have fits : iconTitle.Fits ⟨"Card", .protocol, [], none, ⟨26, 42⟩⟩ (Settings.expansion {}).targets
      (.style ["İcon", "Title"]) :=
    .style rfl rfl ⟨rfl, .inl rfl, rfl⟩ ⟨by decide, by decide, by decide⟩
  have expanded := fits.expand_eq_ok ⟨[], []⟩
  obtain ⟨argument, subViews, configuration, inside, takes, peer, text, names, -, distinct⟩ :=
    configuration_declares_distinct_names rfl expanded
  obtain ⟨only, -, value⟩ := takes
  cases only
  cases value
  exact ⟨_, expanded, configuration, inside, peer, text, names.trans (by decide), distinct⟩

/-! ## Components -/

theorem isMember_of_mem_componentFragments {unit : Text} {component : Declaration} :
    ∀ fragment ∈ componentFragments unit component, fragment.isMember = true := by
  rw [componentFragments_eq]
  simp only [List.forall_mem_append, List.forall_mem_cons, List.forall_mem_map]
  exact ⟨⟨⟨rfl, rfl, by simp⟩, fun slot _ => rfl⟩, rfl, by simp⟩

theorem Text.lowerFirst_ne {word : Text} (changed : word.lowerFirst ≠ word) (name : Text) :
    name.lowerFirst ≠ word := by
  rintro rfl
  exact changed name.lowerFirst_lowerFirst

/-- The members of a component are distinct if its slots are, and none of them has a name that the
component takes itself. -/
theorem nodup_componentNames_iff {parameters : List Text} :
    (["style".toList, "Configuration".toList] ++ parameters.map Text.lowerFirst ++
        ["body".toList]).Nodup ↔
      (parameters.map Text.lowerFirst).Nodup ∧
        ∀ parameter ∈ parameters, parameter.lowerFirst ∉ ["style".toList, "body".toList] := by
  have apart : ∀ parameter ∈ parameters, parameter.lowerFirst ≠ "Configuration".toList :=
    fun parameter _ => Text.lowerFirst_ne (by decide) parameter
  have own : ["style".toList, "Configuration".toList, "body".toList].Nodup := by decide
  have order : (["style".toList, "Configuration".toList] ++ parameters.map Text.lowerFirst ++
      ["body".toList]).Perm (["style".toList, "Configuration".toList, "body".toList] ++
        parameters.map Text.lowerFirst) := by
    rw [List.append_assoc]
    exact List.perm_append_comm.append_left _
  rw [order.nodup_iff, List.nodup_append]
  constructor
  · rintro ⟨-, slots, distinct⟩
    refine ⟨slots, fun parameter member taken => ?_⟩
    have free := fun name inside => distinct name inside _ (List.mem_map_of_mem member)
    rcases List.mem_cons.mp taken with first | last
    · exact free _ List.mem_cons_self first.symm
    · exact free _ (List.mem_cons_of_mem _ (List.mem_cons_of_mem _ last)) rfl
  · rintro ⟨slots, free⟩
    refine ⟨own, slots, fun name inside property lowered same => ?_⟩
    obtain ⟨parameter, member, rfl⟩ := List.mem_map.mp lowered
    have untaken := free parameter member
    rw [same] at inside
    rcases List.mem_cons.mp inside with first | inside
    · exact untaken (first ▸ List.mem_cons_self)
    · rcases List.mem_cons.mp inside with second | last
      · exact apart parameter member second
      · exact untaken (List.mem_cons_of_mem _ last)

/-- An accepted `@UIComponent` declares its own three names and the name of each generic parameter
in lower case, all of them in the struct. What is accepted does not keep them apart: they are
distinct exactly if no two parameters agree in lower case and none is called `style` or `body`. -/
theorem component_members_nodup_iff {settings : Settings} {source : SourceText} {site : SiteExpansion}
    (member : site ∈ (FileExpansion.ofSource source settings.expansion).sites)
    {declaration : Declaration} (declared : site.declaration = some declaration)
    {invocation : Invocation} (inside : invocation ∈ site.invocations)
    (component : invocation.name = .component) {code : List Fragment}
    (accepted : invocation.expand declaration settings.expansion source = .ok code) :
    (∀ fragment ∈ code, fragment ∈ site.members) ∧
      code.flatMap Fragment.declaredNames =
        ["style".toList, "Configuration".toList] ++
          declaration.genericParameters.map Text.lowerFirst ++ ["body".toList] ∧
      ((code.flatMap Fragment.declaredNames).Nodup ↔
        (declaration.genericParameters.map Text.lowerFirst).Nodup ∧
          ∀ parameter ∈ declaration.genericParameters,
            parameter.lowerFirst ∉ ["style".toList, "body".toList]) := by
  have fragments := FileExpansion.mem_fragments member declared inside accepted
  obtain ⟨⟨path, pathText⟩, words⟩ := FileExpansion.declaration_named member declared
  obtain ⟨use, fits, rfl⟩ := Invocation.exists_fits_of_expand accepted
  cases fits with
  | style name kind takes fit => cases component.symm.trans name
  | registerStyle name kind takes word => cases component.symm.trans name
  | convenienceModifier name kind takes word => cases component.symm.trans name
  | component name kind bare =>
      have unbroken : declaration.name.Unbroken := pathText ▸ path.text_unbroken
      have names : (Use.component.fragments settings.expansion.unit declaration).flatMap
          Fragment.declaredNames = _ :=
        declaredNames_componentFragments (indentUnit_spaces settings.indentWidth) unbroken
          fun parameter inside => Text.name_of_isIdentifier (words parameter inside)
      refine ⟨fun fragment inside => List.mem_filter.mpr ⟨fragments fragment inside,
        isMember_of_mem_componentFragments fragment inside⟩, names, ?_⟩
      rw [names]
      exact nodup_componentNames_iff

def parametersSource (parameters : Text) : SourceText :=
  ⟨"Card.swift", "@UIComponent\nstruct Card<" ++ parameters ++ "> \x7b\x7d\n"⟩

theorem component_members_nodup_of_icon_title :
    ∃ site ∈ (FileExpansion.ofSource (parametersSource "Icon, Title") (Settings.expansion {})).sites,
      ∃ declaration, site.declaration = some declaration ∧ ∃ invocation ∈ site.invocations,
        ∃ code, invocation.expand declaration (Settings.expansion {}) (parametersSource "Icon, Title") =
            .ok code ∧ (code.flatMap Fragment.declaredNames).Nodup := by
  obtain ⟨site, member, declared, inside⟩ := FileExpansion.exists_site_of_head?
    (FileExpansion.ofSource (parametersSource "Icon, Title") (Settings.expansion {}))
    ⟨"Card", .struct, ["Icon", "Title"], none, ⟨13, 40⟩⟩ ⟨.component, [], ⟨0, 12⟩⟩ (by decide +kernel)
  have distinct := (component_members_nodup_iff member declared inside rfl rfl).2.2
  exact ⟨site, member, _, declared, _, inside, _, rfl,
    distinct.mpr ⟨by decide, by decide⟩⟩

/-- A generic parameter `Style` is accepted, and the component declares `style` twice. -/
theorem component_declares_style_twice :
    ∃ site ∈ (FileExpansion.ofSource (parametersSource "Style") (Settings.expansion {})).sites,
      ∃ declaration, site.declaration = some declaration ∧ ∃ invocation ∈ site.invocations,
        invocation.name = .component ∧
        ∃ code, invocation.expand declaration (Settings.expansion {}) (parametersSource "Style") =
            .ok code ∧ ¬ (code.flatMap Fragment.declaredNames).Nodup := by
  obtain ⟨site, member, declared, inside⟩ := FileExpansion.exists_site_of_head?
    (FileExpansion.ofSource (parametersSource "Style") (Settings.expansion {}))
    ⟨"Card", .struct, ["Style"], none, ⟨13, 34⟩⟩ ⟨.component, [], ⟨0, 12⟩⟩ (by decide +kernel)
  exact ⟨site, member, _, declared, _, inside, rfl, _, rfl, by decide +kernel⟩

end StyleMacros
