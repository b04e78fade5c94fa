import StyleMacros.Proofs.Expansion.ComponentMembers
import StyleMacros.Settings

/-!
# The four expansions agree

A component, the style that it is rendered by, the registration of the style and its modifier are
generated apart from each other. The names by which their texts refer to each other are the same,
and the arguments that the component passes are the stored properties of the configuration.
-/

set_option autoImplicit false

namespace StyleMacros

/-! ## The four expansions -/

/-- What the generated code of four invocations has in common: the key path of the environment,
the types of the style, and the content that makes up its configuration. -/
def ExpansionsAgree (subViews : List Text) (style component registration modifier : List Fragment) :
    Prop :=
  ∃ property configuration default erased key peer,
    (style.filter Fragment.isPeer).map Fragment.declaredType? =
        [some configuration, some default, some erased, some key] ∧
      component.filterMap Fragment.stylePath? = [property] ∧
      component.filterMap Fragment.configurationAlias? = [configuration] ∧
      registration.map Fragment.accessor? = [some ⟨property, erased, [key, key]⟩] ∧
      modifier.map Fragment.installed? = [some (property, erased)] ∧
      peer ∈ style.filter Fragment.isPeer ∧ peer.declaredType? = some configuration ∧
      storedProperties peer.text.outline = subViews.map (fun name => (name.lowerFirst, name)) ∧
      contentTypes peer.text.outline = subViews ∧
      component.filterMap Fragment.passedArguments? = [storedProperties peer.text.outline]

theorem fragments_agree {unit : Text} (spaces : ∀ char ∈ unit, char = ' ')
    (component : Declaration) (name : component.name.Name)
    (parameters : ∀ parameter ∈ component.genericParameters, parameter.Name) :
    ExpansionsAgree component.genericParameters
      (styleFragments unit (componentStyle component.name) component.genericParameters)
      (componentFragments unit component)
      [accessorMember unit (componentStyle component.name)]
      [modifierMember unit (componentStyle component.name)] := by
  have style : (componentStyle component.name).Name := name.append (by decide)
  have slots : ∀ slot ∈ component.genericParameters.map Slot.ofType, slot.Named :=
    componentSlots_named parameters
  have configuration := declaredType?_configurationPeer style unit
    (component.genericParameters.map Slot.ofType)
  obtain ⟨stored, content⟩ := configurationPeer_slots spaces style slots
  rw [List.map_map] at stored content
  have peers := styleFragments_peers unit (componentStyle component.name) component.genericParameters
  refine ⟨propertyOf (componentStyle component.name), configurationType (componentStyle component.name),
    defaultType (componentStyle component.name), erasedType (componentStyle component.name),
    keyType (componentStyle component.name), configurationPeer unit (componentStyle component.name)
      (component.genericParameters.map Slot.ofType), ?_, ?_, ?_, ?_, ?_, ?_, configuration, stored,
    ?_, ?_⟩
  · rw [peers]
    exact declaredType?_peers style unit _
  · rw [← componentStyleProperty_eq name]
    exact stylePath?_componentFragments name
  · exact configurationAlias?_componentFragments name
  · rw [List.map_singleton, accessor?_accessorMember spaces style]
  · rw [List.map_singleton, installed?_modifierMember spaces style]
  · rw [peers]
    exact List.mem_cons_self
  · exact content.trans (List.map_id _)
  · rw [stored]
    exact passedArguments?_componentFragments spaces name parameters

/-! ## Accepted uses -/

section Uses

variable {settings : ExpansionSettings} {source : SourceText} {span : Span}

theorem styleFragments_of_expand {label : Option Text} {subViews : List Text} {argumentSpan : Span}
    {declaration : Declaration} {code : List Fragment}
    (accepted : Invocation.expand ⟨.style, [⟨label, .list subViews, argumentSpan⟩], span⟩ declaration
      settings source = .ok code) :
    code = styleFragments settings.unit declaration.name subViews ∧
      ∀ name ∈ subViews, name.isIdentifier = true := by
  obtain ⟨use, fits, rfl⟩ := Invocation.exists_fits_of_expand accepted
  cases fits with
  | style name kind takes fit =>
      obtain ⟨only, label, value⟩ := takes
      cases only
      cases value
      exact ⟨rfl, fit.identifiers⟩
  | registerStyle name kind takes word => cases name
  | convenienceModifier name kind takes word => cases name
  | component name kind bare => cases name

theorem expand_component (name : Text) (parameters : List Text) (access : Option AccessLevel)
    (declared : Span) :
    Invocation.expand ⟨.component, [], span⟩ ⟨name, .struct, parameters, access, declared⟩ settings
        source =
      .ok (componentFragments settings.unit ⟨name, .struct, parameters, access, declared⟩) := rfl

theorem expand_registerStyle {style : Text} (word : style.isIdentifier = true)
    (argumentSpan : Span) {declaration : Declaration}
    (extends_ : declaration.kind = .extensionOf settings.targets.environmentType) :
    Invocation.expand ⟨.registerStyle, [⟨none, .string style, argumentSpan⟩], span⟩ declaration
      settings source = .ok [accessorMember settings.unit style] :=
  Invocation.Fits.expand_eq_ok (.registerStyle rfl extends_ ⟨rfl, rfl, rfl⟩ word) source

theorem expand_convenienceModifier {style : Text} (word : style.isIdentifier = true)
    (argumentSpan : Span) {declaration : Declaration}
    (extends_ : declaration.kind = .extensionOf settings.targets.viewType) :
    Invocation.expand ⟨.convenienceModifier, [⟨none, .string style, argumentSpan⟩], span⟩
      declaration settings source = .ok [modifierMember settings.unit style] :=
  Invocation.Fits.expand_eq_ok (.convenienceModifier rfl extends_ ⟨rfl, rfl, rfl⟩ word) source

end Uses

/-- The expansions of the four attributes agree on names. If `@Style` is accepted on the protocol
of a component's style, then the component with a generic parameter for each sub-view, the
registration of the style and its modifier are accepted too, and all of them use one key path, one
set of types and one list of arguments. -/
theorem expansions_agree {settings : Settings} {source : SourceText} {component : Text}
    {subViews : List Text} {label : Option Text} {argumentSpan span : Span}
    {protocolParameters : List Text} {protocolAccess : Option AccessLevel} {protocolSpan : Span}
    {style : List Fragment} (word : component.isIdentifier = true)
    (accepted : Invocation.expand ⟨.style, [⟨label, .list subViews, argumentSpan⟩], span⟩
      ⟨component ++ "Style", .protocol, protocolParameters, protocolAccess, protocolSpan⟩
      settings.expansion source = .ok style) :
    ∀ (access : Option AccessLevel) (componentSpan useSpan : Span),
    ∃ members registration modifier,
      Invocation.expand ⟨.component, [], useSpan⟩
        ⟨component, .struct, subViews, access, componentSpan⟩ settings.expansion source =
          .ok members ∧
      Invocation.expand ⟨.registerStyle, [⟨none, .string (component ++ "Style"), argumentSpan⟩],
        useSpan⟩ ⟨settings.environmentType, .extensionOf settings.environmentType, [], none,
          componentSpan⟩ settings.expansion source = .ok registration ∧
      Invocation.expand ⟨.convenienceModifier, [⟨none, .string (component ++ "Style"),
        argumentSpan⟩], useSpan⟩ ⟨settings.viewType, .extensionOf settings.viewType, [], none,
          componentSpan⟩ settings.expansion source = .ok modifier ∧
      ExpansionsAgree subViews style members registration modifier := by
  intro access componentSpan useSpan
  obtain ⟨rfl, words⟩ := styleFragments_of_expand accepted
  have styleWord : Text.isIdentifier (component ++ "Style") = true :=
    Text.isIdentifier_append word (by decide +kernel)
  refine ⟨_, _, _, expand_component component subViews access componentSpan,
    expand_registerStyle styleWord argumentSpan rfl,
    expand_convenienceModifier styleWord argumentSpan rfl, ?_⟩
  exact fragments_agree (indentUnit_spaces settings.indentWidth)
    ⟨component, .struct, subViews, access, componentSpan⟩ (Text.name_of_isIdentifier word)
    fun name member => Text.name_of_isIdentifier (words name member)

/-- Two sub-views, one of which gets longer in lower case. -/
def itemSubViews : List Text :=
  ["Title", "İcon"]

def itemStyle : Invocation :=
  ⟨.style, [⟨some "subViews", .list itemSubViews, ⟨7, 33⟩⟩], ⟨0, 34⟩⟩

def itemProtocol : Declaration :=
  ⟨"İtem" ++ "Style", .protocol, [], none, ⟨35, 60⟩⟩

theorem expand_itemStyle (settings : ExpansionSettings) (source : SourceText) :
    itemStyle.expand itemProtocol settings source =
      .ok (styleFragments settings.unit itemProtocol.name itemSubViews) := by
  have fits : itemStyle.Fits itemProtocol settings.targets (.style itemSubViews) :=
    .style rfl rfl ⟨rfl, .inr rfl, rfl⟩ ⟨by decide, by decide, by decide⟩
  exact fits.expand_eq_ok source

theorem expansions_agree_of_item : ∃ style members registration modifier,
    Text.isIdentifier "İtem" = true ∧
      itemStyle.expand itemProtocol (Settings.expansion {}) ⟨[], []⟩ = .ok style ∧
      Invocation.expand ⟨.component, [], ⟨0, 12⟩⟩
        ⟨"İtem", .struct, itemSubViews, some .public_, ⟨13, 50⟩⟩ (Settings.expansion {}) ⟨[], []⟩ =
          .ok members ∧
      ExpansionsAgree itemSubViews style members registration modifier := by
  have word : Text.isIdentifier "İtem" = true := by decide +kernel
  have accepted := expand_itemStyle (Settings.expansion {}) ⟨[], []⟩
  obtain ⟨members, registration, modifier, expanded, _, _, agree⟩ :=
    expansions_agree word accepted (some .public_) ⟨13, 50⟩ ⟨0, 12⟩
  exact ⟨_, members, registration, modifier, word, accepted, expanded, agree⟩

end StyleMacros
