import StyleMacros.Proofs.Expansion.Generated
import StyleMacros.Proofs.Expansion.Interface

/-!
# What the generated peers and members refer to

The registration of a style, its modifier and its configuration are read back: the key path and the
types that they use are derived from the name of the style, and the stored properties of the
configuration are its slots.
-/

set_option autoImplicit false

namespace StyleMacros

/-! ## Derived names -/

section Names

variable {style : Text} (name : style.Name)

include name in
theorem configurationType_name : (configurationType style).Name :=
  name.append (by decide)

include name in
theorem defaultType_name : (defaultType style).Name :=
  .prepend (by decide) name

include name in
theorem erasedType_name : (erasedType style).Name :=
  .prepend (by decide) name

include name in
theorem keyType_name : (keyType style).Name :=
  name.append (by decide)

include name in
theorem propertyOf_name : (propertyOf style).Name :=
  name.lowerFirst

/-- Changing the case of the first letter does not touch what stands behind the name. -/
theorem componentStyleProperty_eq {component : Text} (whole : component.Name) :
    componentStyleProperty component = propertyOf (componentStyle component) := by
  cases component with
  | nil => exact absurd rfl whole.nonempty
  | cons head rest => simp [componentStyleProperty, componentStyle, propertyOf, Text.lowerFirst]

end Names

theorem after?_keyword {head : Char} (other : head ∉ ['o', 'p', 'i', 'f']) (level : AccessLevel)
    (rest : Text) : Text.after? (level.keyword ++ " ") (head :: rest) = none := by
  have starts : (level.keyword ++ " ".toList).head? ∈ ['o', 'p', 'i', 'f'].map some := by
    cases level <;> decide
  cases exact : level.keyword ++ " ".toList with
  | nil => simp at exact
  | cons first others =>
      have member : first ∈ ['o', 'p', 'i', 'f'] := by
        rw [exact] at starts
        simpa using starts
      have apart : first ≠ head := fun same => other (same ▸ member)
      simp [Text.after?, List.isPrefixOf?, apart]

theorem withoutAccess_lead (access : Option AccessLevel) {head : Char} (rest : Text)
    (other : head ∉ ['o', 'p', 'i', 'f']) :
    withoutAccess (AccessLevel.lead access ++ head :: rest) = head :: rest := by
  cases access with
  | none =>
      have absent : (AccessLevel.all.findSome? fun level =>
          Text.after? (level.keyword ++ " ") (head :: rest)) = none :=
        List.findSome?_eq_none_iff.mpr fun level _ => after?_keyword other level rest
      simp only [AccessLevel.lead, List.nil_append, withoutAccess, absent, Option.getD_none]
  | some level => cases level <;> rfl

/-! ## Registration and modifier -/

section Environment

variable {unit style : Text} (spaces : ∀ char ∈ unit, char = ' ') (name : style.Name)

include spaces name in
theorem accessor?_accessorMember : (accessorMember unit style).accessor? =
    some ⟨propertyOf style, erasedType style, [keyType style, keyType style]⟩ := by
  have property := propertyOf_name name
  have erased := erasedType_name name
  have key := keyType_name name
  have tidy : (CodeLine.block ("var " ++ propertyOf style ++ ": " ++ erasedType style) [
      .block "get" [.line ("self[" ++ keyType style ++ ".self]")],
      .block "set" [.line ("self[" ++ keyType style ++ ".self] = newValue")]]).Tidy := by
    refine ⟨⟨⟨?_, rfl⟩, by simp⟩, ⟨⟨⟨by decide, rfl⟩, by simp⟩, ⟨?_, rfl⟩, trivial⟩,
      ⟨⟨⟨by decide, rfl⟩, by simp⟩, ⟨?_, rfl⟩, trivial⟩, trivial⟩
    · simp only [Text.quiet_append, property.quiet, erased.quiet, and_true]
      decide
    · simp only [Text.quiet_append, key.quiet, and_true]
      decide
    · simp only [Text.quiet_append, key.quiet, and_true]
      decide
  have outline := Code.outline_block spaces tidy
  have header : typedVar? ("var " ++ propertyOf style ++ ": " ++ erasedType style ++ " \x7b") =
      some (propertyOf style, erasedType style) := by
    have first := Text.nameBehind?_append "var " property
      (Text.endsName_append (by decide : ": ".toList ≠ []) (by decide) (erasedType style ++ " \x7b"))
    have second := Text.nameBehind?_append ": " erased (by decide : Text.EndsName " \x7b")
    simp only [typedVar?, List.append_assoc, first, second, Option.bind_eq_bind, Option.bind_some]
    rfl
  have used (rest : Text) : subscriptKey? ("self[" ++ keyType style ++ ".self]" ++ rest) =
      some (keyType style) := by
    have first := Text.nameBehind?_append "self[" key
      (Text.endsName_append (by decide : ".self]".toList ≠ []) (by decide) rest)
    simp only [subscriptKey?, List.append_assoc, first, Text.after?_append, Option.bind_eq_bind,
      Option.bind_some]
    rfl
  have reads : subscriptKey? ("self[" ++ keyType style ++ ".self]") = some (keyType style) := by
    simpa only [List.append_nil] using used []
  have writes : subscriptKey? ("self[" ++ keyType style ++ ".self] = newValue") =
      some (keyType style) := by
    have split : ".self] = newValue".toList = ".self]".toList ++ " = newValue" := by decide
    rw [split, ← List.append_assoc]
    exact used _
  have getter : subscriptKey? ("get".toList ++ " \x7b") = none := rfl
  have setter : subscriptKey? ("set".toList ++ " \x7b") = none := rfl
  have closing : subscriptKey? ['\x7d'] = none := rfl
  rw [Fragment.accessor?, accessorMember, Fragment.member, outline]
  simp only [CodeLine.outline, CodeLine.outlineAll, header, Option.map_some, List.cons_append,
    List.nil_append, List.append_nil, List.filterMap_cons, List.filterMap_nil, getter, setter,
    closing, reads, writes]

include spaces name in
theorem installed?_modifierMember : (modifierMember unit style).installed? =
    some (propertyOf style, erasedType style) := by
  have property := propertyOf_name name
  have erased := erasedType_name name
  have tidy : (CodeLine.block ("public func " ++ propertyOf style ++ "(_ style: some " ++ style ++
        ") -> some View") [
      .line ("environment(\\." ++ propertyOf style ++ ", " ++ erasedType style ++
        "(style: style))")]).Tidy := by
    refine ⟨⟨⟨?_, rfl⟩, by simp⟩, ⟨?_, rfl⟩, trivial⟩
    · simp only [Text.quiet_append, property.quiet, name.quiet, and_true]
      decide
    · simp only [Text.quiet_append, property.quiet, erased.quiet, and_true]
      decide
  have outline := Code.outline_block spaces tidy
  have header (rest : Text) : Text.nameBehind? "environment(\\." ("public func " ++ rest) = none := rfl
  have path := Text.nameBehind?_append "environment(\\." property
    (Text.endsName_append (by decide : ", ".toList ≠ []) (by decide)
      (erasedType style ++ "(style: style))"))
  have type := Text.nameBehind?_append ", " erased (by decide : Text.EndsName "(style: style))")
  rw [Fragment.installed?, modifierMember, Fragment.member, outline]
  simp only [CodeLine.outline, CodeLine.outlineAll, List.findSome?_cons, List.append_assoc, header,
    path, type, Option.bind_eq_bind, Option.bind_some, Option.bind_none, List.cons_append]
  rfl

end Environment

/-! ## Slots -/

structure Slot.Named (slot : Slot) : Prop where
  typeName : slot.typeName.Name
  property : slot.property.Name

theorem Slot.ofType_named {typeName : Text} (name : typeName.Name) : (Slot.ofType typeName).Named :=
  ⟨name, name.lowerFirst⟩

section Slots

variable {slot : Slot} (named : slot.Named)

include named in
theorem slotWrapper_tidy : (slotWrapper slot).Tidy := by
  have header : Text.Quiet ("public struct " ++ slot.typeName ++ ": View") := by
    simp only [Text.quiet_append, named.typeName.quiet, and_true]
    decide
  exact ⟨⟨⟨header, rfl⟩, by simp⟩, ⟨by decide, rfl⟩, trivial,
    ⟨⟨⟨by decide, rfl⟩, by simp⟩, ⟨by decide, rfl⟩, trivial⟩, trivial⟩

include named in
theorem slotProperty_tidy : (slotProperty slot).Tidy := by
  refine ⟨?_, rfl⟩
  simp only [Text.quiet_append, named.typeName.quiet, named.property.quiet, and_true]
  decide

/-- A nested struct stores nothing in the configuration. -/
theorem storedProperties_slotWrapper (slot : Slot) :
    storedProperties (CodeLine.outline 1 (slotWrapper slot)) = [] := rfl

include named in
theorem storedProperties_slotProperty :
    storedProperties (CodeLine.outline 1 (slotProperty slot)) = [(slot.property, slot.typeName)] := by
  have first := Text.nameBehind?_append "public var " named.property
    (Text.endsName_append (by decide : ": Self.".toList ≠ []) (by decide) slot.typeName)
  have second := Text.nameBehind?_append ": Self." named.typeName (by decide : Text.EndsName [])
  rw [List.append_nil] at second
  have read : storedProperty? ("public var " ++ slot.property ++ ": Self." ++ slot.typeName) =
      some (slot.property, slot.typeName) := by
    simp only [storedProperty?, List.append_assoc, first, second, Option.bind_eq_bind,
      Option.bind_some, if_true]
  simp only [storedProperties, slotProperty, CodeLine.outline, List.filterMap_cons,
    List.filterMap_nil, if_true, read]

theorem contentTypes_cons_of_none {line : Nat × Text} (other : nestedStruct? line = none)
    (rest : List (Nat × Text)) : contentTypes (line :: rest) = contentTypes rest := by
  rw [contentTypes, other]

/-- Nothing that stands deeper is a nested struct of the outermost braces. -/
theorem contentTypes_append_of_deeper {inner : List (Nat × Text)}
    (deeper : ∀ line ∈ inner, 1 < line.1) (rest : List (Nat × Text)) :
    contentTypes (inner ++ rest) = contentTypes rest := by
  induction inner with
  | nil => rfl
  | cons line others inductionHypothesis =>
      have other : nestedStruct? line = none := by
        have apart : line.1 ≠ 1 := by
          have := deeper line List.mem_cons_self
          omega
        simp only [nestedStruct?, apart, if_false]
      rw [List.cons_append, contentTypes_cons_of_none other]
      exact inductionHypothesis fun line member => deeper line (List.mem_cons_of_mem _ member)

def wrapperBody : List (Nat × Text) :=
  [(2, "public var body: AnyView"), (2, []),
    (2, "public init<Content: View>(content: Content) \x7b"), (3, "body = AnyView(content)"),
    (3, "\x7d"), (2, "\x7d")]

theorem wrapperBody_deeper : ∀ line ∈ wrapperBody, 1 < line.1 := by
  decide

theorem outline_slotWrapper (slot : Slot) : CodeLine.outline 1 (slotWrapper slot) =
    (1, "public struct " ++ slot.typeName ++ ": View" ++ " \x7b") :: wrapperBody := by
  have opening : "public init<Content: View>(content: Content) \x7b".toList =
      "public init<Content: View>(content: Content)" ++ " \x7b" := by decide
  have closing : "\x7d".toList = ['\x7d'] := by decide
  simp only [slotWrapper, CodeLine.outline, CodeLine.outlineAll, wrapperBody, opening, closing,
    List.cons_append, List.nil_append]

include named in
theorem contentTypes_slotWrapper (rest : List (Nat × Text)) :
    contentTypes (CodeLine.outline 1 (slotWrapper slot) ++ rest) =
      slot.typeName :: contentTypes rest := by
  have header : nestedStruct? (1, "public struct " ++ slot.typeName ++ ": View" ++ " \x7b") =
      some slot.typeName := by
    have read := Text.nameBehind?_append "public struct " named.typeName
      (Text.endsName_append (by decide : ": View".toList ≠ []) (by decide) " \x7b")
    simp only [nestedStruct?, if_true, List.append_assoc, read, Option.map_some]
  have taken : ((wrapperBody ++ rest).takeWhile fun inner => 1 < inner.1).any takesContent = true := by
    rw [List.takeWhile_append_of_pos (by simpa using wrapperBody_deeper), List.any_append]
    rfl
  rw [outline_slotWrapper, List.cons_append, contentTypes, header]
  simp only [taken, if_true, contentTypes_append_of_deeper wrapperBody_deeper]

end Slots

/-! ## Configurations -/

section Configuration

variable {unit style : Text} (spaces : ∀ char ∈ unit, char = ' ') (name : style.Name)
  {slots : List Slot} (named : ∀ slot ∈ slots, slot.Named)

theorem configurationPeer_of_ne_nil (nonempty : slots ≠ []) :
    configurationPeer unit style slots = .peer unit [.block ("public struct " ++ configurationType style)
      (slots.map slotWrapper ++ .blank :: slots.map slotProperty)] := by
  simp only [configurationPeer, nonempty, if_false]

theorem styleFragments_peers (unit style : Text) (subViews : List Text) :
    (styleFragments unit style subViews).filter Fragment.isPeer =
      [configurationPeer unit style (subViews.map Slot.ofType),
        defaultPeer unit style (subViews.map Slot.ofType), erasedPeer unit style,
        keyPeer unit style] := by
  have role := configurationPeer_role unit style (subViews.map Slot.ofType)
  simp only [styleFragments, styleMembers, List.filter_append, List.filter_cons, List.filter_nil,
    Fragment.isPeer, role]
  rfl

def configurationBody (slots : List Slot) : List (Nat × Text) :=
  slots.flatMap (fun slot => CodeLine.outline 1 (slotWrapper slot)) ++
    (1, []) :: (slots.flatMap (fun slot => CodeLine.outline 1 (slotProperty slot)) ++ [(1, ['\x7d'])])

include named in
theorem configurationBody_tidy :
    CodeLine.AllTidy (slots.map slotWrapper ++ .blank :: slots.map slotProperty) := by
  refine CodeLine.allTidy_iff.mpr fun line member => ?_
  rcases List.mem_append.mp member with wrapper | property
  · obtain ⟨slot, slotMember, rfl⟩ := List.mem_map.mp wrapper
    exact slotWrapper_tidy (named slot slotMember)
  · rcases List.mem_cons.mp property with rfl | property
    · trivial
    · obtain ⟨slot, slotMember, rfl⟩ := List.mem_map.mp property
      exact slotProperty_tidy (named slot slotMember)

theorem outlineAll_configurationBody (slots : List Slot) :
    CodeLine.outlineAll 1 (slots.map slotWrapper ++ .blank :: slots.map slotProperty) ++
      [(1, ['\x7d'])] = configurationBody slots := by
  simp [CodeLine.outline, CodeLine.outlineAll_eq_flatMap, configurationBody, List.flatMap_map]

include spaces name named in
theorem outline_configurationPeer (nonempty : slots ≠ []) :
    (configurationPeer unit style slots).text.outline =
      (0, "public struct " ++ configurationType style ++ " \x7b") :: configurationBody slots := by
  have quiet : Text.Quiet ("public struct " ++ configurationType style) := by
    simp only [Text.quiet_append, (configurationType_name name).quiet, and_true]
    decide
  have tidy : (CodeLine.block ("public struct " ++ configurationType style)
      (slots.map slotWrapper ++ .blank :: slots.map slotProperty)).Tidy :=
    ⟨⟨⟨quiet, rfl⟩, by simp⟩, configurationBody_tidy named⟩
  rw [configurationPeer_of_ne_nil nonempty, ← outlineAll_configurationBody]
  exact Code.outline_block spaces tidy

theorem storedProperties_append (first second : List (Nat × Text)) :
    storedProperties (first ++ second) = storedProperties first ++ storedProperties second :=
  List.filterMap_append

theorem storedProperties_slotWrappers (slots : List Slot) :
    storedProperties (slots.flatMap fun slot => CodeLine.outline 1 (slotWrapper slot)) = [] := by
  induction slots with
  | nil => rfl
  | cons first others inductionHypothesis =>
      rw [List.flatMap_cons, storedProperties_append, storedProperties_slotWrapper,
        inductionHypothesis, List.nil_append]

include named in
theorem storedProperties_slotProperties :
    storedProperties (slots.flatMap fun slot => CodeLine.outline 1 (slotProperty slot)) =
      slots.map fun slot => (slot.property, slot.typeName) := by
  induction slots with
  | nil => rfl
  | cons first others inductionHypothesis =>
      rw [List.flatMap_cons, storedProperties_append,
        storedProperties_slotProperty (named first List.mem_cons_self),
        inductionHypothesis fun slot member => named slot (List.mem_cons_of_mem first member)]
      rfl

include named in
theorem storedProperties_configurationBody : storedProperties (configurationBody slots) =
    slots.map fun slot => (slot.property, slot.typeName) := by
  have closing : storedProperties [(1, ['\x7d'])] = [] := rfl
  rw [configurationBody, storedProperties_append, storedProperties_slotWrappers, List.nil_append,
    ← List.singleton_append, storedProperties_append, storedProperties_append, closing,
    storedProperties_slotProperties named, List.append_nil]
  rfl

include named in
theorem contentTypes_slotWrappers (rest : List (Nat × Text)) :
    contentTypes (slots.flatMap (fun slot => CodeLine.outline 1 (slotWrapper slot)) ++ rest) =
      slots.map Slot.typeName ++ contentTypes rest := by
  induction slots with
  | nil => rfl
  | cons first others inductionHypothesis =>
      rw [List.flatMap_cons, List.append_assoc,
        contentTypes_slotWrapper (named first List.mem_cons_self),
        inductionHypothesis fun slot member => named slot (List.mem_cons_of_mem first member)]
      rfl

theorem contentTypes_slotProperties (slots : List Slot) (rest : List (Nat × Text)) :
    contentTypes (slots.flatMap (fun slot => CodeLine.outline 1 (slotProperty slot)) ++ rest) =
      contentTypes rest := by
  induction slots with
  | nil => rfl
  | cons first others inductionHypothesis =>
      have other : nestedStruct?
          (1, "public var " ++ first.property ++ ": Self." ++ first.typeName) = none := rfl
      rw [List.flatMap_cons, List.append_assoc]
      exact (contentTypes_cons_of_none other _).trans inductionHypothesis

include named in
theorem contentTypes_configurationBody :
    contentTypes (configurationBody slots) = slots.map Slot.typeName := by
  have blank : nestedStruct? (1, []) = none := rfl
  have closing : contentTypes [(1, ['\x7d'])] = [] := rfl
  rw [configurationBody, contentTypes_slotWrappers named, contentTypes_cons_of_none blank,
    contentTypes_slotProperties, closing, List.append_nil]

theorem configurationPeer_nil (unit style : Text) :
    configurationPeer unit style [] =
      ⟨.peer, "public struct " ++ configurationType style ++ " \x7b\x7d"⟩ := rfl

include spaces name named in
/-- The configuration stores one property for each slot, each of a nested type that takes any
content. -/
theorem configurationPeer_slots :
    storedProperties (configurationPeer unit style slots).text.outline =
        slots.map (fun slot => (slot.property, slot.typeName)) ∧
      contentTypes (configurationPeer unit style slots).text.outline =
        slots.map Slot.typeName := by
  by_cases empty : slots = []
  · have quiet := (configurationType_name name).quiet.inLine
    have inLine : Text.InLine ("public struct " ++ configurationType style ++ " \x7b\x7d") := by
      constructor
      · simp [quiet.1]
      · simp [quiet.2]
    subst empty
    rw [configurationPeer_nil, Text.outline_of_inLine inLine (by simp)]
    exact ⟨rfl, rfl⟩
  · rw [outline_configurationPeer spaces name named empty]
    exact ⟨storedProperties_configurationBody named, (contentTypes_cons_of_none rfl _).trans
      (contentTypes_configurationBody named)⟩

/-! ## Declared types -/

theorem declaredType?_struct (role : FragmentRole) (access : Option AccessLevel) {type : Text}
    (whole : type.Name) {rest : Text} (ends : rest.EndsName) :
    Fragment.declaredType? ⟨role, AccessLevel.lead access ++ ("struct " ++ (type ++ rest))⟩ =
      some type := by
  have passed : withoutAccess (AccessLevel.lead access ++ ("struct " ++ (type ++ rest))) =
      "struct " ++ (type ++ rest) := withoutAccess_lead access _ (by decide : 's' ∉ ['o', 'p', 'i', 'f'])
  rw [Fragment.declaredType?, passed, Text.nameBehind?_append "struct " whole ends, Option.map_some]

theorem declaredType?_block {header : Text} (access : Option AccessLevel) {type rest : Text}
    (whole : type.Name) (ends : Text.EndsName (rest ++ " \x7b"))
    (exact : header = AccessLevel.lead access ++ ("struct " ++ (type ++ rest)))
    (body : List CodeLine) :
    (Fragment.peer unit [.block header body]).declaredType? = some type := by
  have further (more : Text) : Text.EndsName (rest ++ " \x7b" ++ more) :=
    Text.endsName_append (by simp) ends more
  rw [Fragment.peer, Code.text_block, exact]
  simpa only [List.append_assoc] using declaredType?_struct .peer access whole (further _)

theorem lead_public_struct : "public struct ".toList =
    AccessLevel.lead (some .public_) ++ "struct " := by
  decide

include name in
theorem declaredType?_configurationPeer (unit : Text) (slots : List Slot) :
    (configurationPeer unit style slots).declaredType? = some (configurationType style) := by
  have configuration := configurationType_name name
  by_cases empty : slots = []
  · rw [empty, configurationPeer_nil, lead_public_struct, List.append_assoc, List.append_assoc]
    exact declaredType?_struct .peer _ configuration (by decide)
  · rw [configurationPeer_of_ne_nil empty]
    have ends : Text.EndsName (([] : Text) ++ " \x7b") := by decide
    refine declaredType?_block (some .public_) configuration ends ?_ _
    rw [lead_public_struct, List.append_nil, List.append_assoc]

include name in
theorem declaredType?_peers (unit : Text) (slots : List Slot) :
    [configurationPeer unit style slots, defaultPeer unit style slots, erasedPeer unit style,
        keyPeer unit style].map Fragment.declaredType? =
      [some (configurationType style), some (defaultType style), some (erasedType style),
        some (keyType style)] := by
  have separated (type : Text) : Text.EndsName (": " ++ type ++ " \x7b") :=
    Text.endsName_append (by decide : ": ".toList ≠ []) (by decide) _
  have default : (defaultPeer unit style slots).declaredType? = some (defaultType style) := by
    refine declaredType?_block (some .public_) (defaultType_name name) (separated style) ?_ _
    rw [lead_public_struct]
    simp only [List.append_assoc]
  have erased : (erasedPeer unit style).declaredType? = some (erasedType style) := by
    refine declaredType?_block none (erasedType_name name) (separated style) ?_ _
    simp only [AccessLevel.lead, List.nil_append, List.append_assoc]
  have key : (keyPeer unit style).declaredType? = some (keyType style) := by
    refine declaredType?_block none (keyType_name name) (separated "EnvironmentKey") ?_ _
    rfl
  simp only [List.map_cons, List.map_nil, declaredType?_configurationPeer name unit, default, erased, key]

end Configuration

end StyleMacros
