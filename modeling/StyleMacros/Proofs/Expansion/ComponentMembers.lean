import StyleMacros.Proofs.Expansion.Configuration

/-!
# What a generated component refers to

The members of a component are read back: the key path of its style, the configuration that it
names, and the arguments that it passes, one for each slot in the order of the slots.
-/

set_option autoImplicit false

namespace StyleMacros

/-! ## Arguments of the configuration -/

namespace Text

theorem beforeEnd?_append (tail front : Text) : beforeEnd? tail (front ++ tail) = some front := by
  have ends : endsWith (front ++ tail) tail = true :=
    List.isSuffixOf_iff_suffix.mpr (List.suffix_append front tail)
  rw [beforeEnd?, if_pos ends, List.length_append, Nat.add_sub_cancel, List.take_left]

theorem splitOn_join {first : Text} {others : List Text}
    (plain : ∀ piece ∈ first :: others, ',' ∉ piece) :
    splitOn ',' (join ", " (first :: others)) = first :: others.map (' ' :: ·) := by
  have gap : ", ".toList = [',', ' '] := by decide
  induction others generalizing first with
  | nil =>
      have alone : join ", " [first] = first := by simp [join, List.intercalate]
      rw [alone, splitOn_of_notMem (plain first List.mem_cons_self)]
      rfl
  | cons second others inductionHypothesis =>
      have later := inductionHypothesis fun piece member => plain piece (List.mem_cons_of_mem _ member)
      have blank : splitOn ',' (' ' :: join ", " (second :: others)) =
          (' ' :: second) :: others.map (' ' :: ·) := by
        rw [splitOn, if_neg (by decide), later]
      rw [join_cons_cons, gap, List.cons_append, List.singleton_append,
        splitOn_append_cons (plain first List.mem_cons_self), ← gap, blank]
      rfl

end Text

section Arguments

variable {slot : Slot} (named : slot.Named)

include named in
theorem after?_blank_slotArgument : Text.after? " " (slotArgument slot) = none := by
  obtain ⟨typeName, property⟩ := slot
  cases property with
  | nil => exact absurd rfl named.property.nonempty
  | cons head rest =>
      have solid : ' ' ≠ head := by
        rintro rfl
        exact named.property.plain ' ' List.mem_cons_self (by decide)
      simp [slotArgument, Text.after?, List.isPrefixOf?, solid]

include named in
theorem contentArgument?_slotArgument : contentArgument? (slotArgument slot) =
      some (slot.property, slot.typeName) ∧
    contentArgument? (' ' :: slotArgument slot) = some (slot.property, slot.typeName) := by
  have ends := Text.endsName_append (by decide : ": Configuration.".toList ≠ []) (by decide)
    (slot.typeName ++ ("(content: " ++ (slot.property ++ "())")))
  have label := Text.name?_append named.property ends
  have type := Text.nameBehind?_append ": Configuration." named.typeName
    (Text.endsName_append (by decide : "(content: ".toList ≠ []) (by decide) (slot.property ++ "())"))
  have content := Text.nameBehind?_append "(content: " named.property
    (by decide : Text.EndsName "())")
  have piece : (Text.after? " " (slotArgument slot)).getD (slotArgument slot) = slotArgument slot := by
    rw [after?_blank_slotArgument named, Option.getD_none]
  have bare : (Text.after? " " (' ' :: slotArgument slot)).getD (' ' :: slotArgument slot) =
      slotArgument slot := by
    have passed : Text.after? " " (' ' :: slotArgument slot) = some (slotArgument slot) :=
      Text.after?_append " " (slotArgument slot)
    rw [passed, Option.getD_some]
  have read : Text.name? (slotArgument slot) = some (slot.property, ": Configuration." ++
      (slot.typeName ++ ("(content: " ++ (slot.property ++ "())")))) := by
    simpa only [slotArgument, List.append_assoc] using label
  constructor
  · simp only [contentArgument?, piece, read, type, content, Option.bind_eq_bind, Option.bind_some,
      and_self, if_true]
  · simp only [contentArgument?, bare, read, type, content, Option.bind_eq_bind, Option.bind_some,
      and_self, if_true]

include named in
theorem comma_notMem_slotArgument : ',' ∉ slotArgument slot := by
  have property : ',' ∉ slot.property := fun member => named.property.plain ',' member (by decide)
  have type : ',' ∉ slot.typeName := fun member => named.typeName.plain ',' member (by decide)
  simp [slotArgument, property, type]

include named in
theorem slotArgument_quiet : (slotArgument slot).Quiet := by
  simp only [slotArgument, Text.quiet_append, named.typeName.quiet, named.property.quiet, and_true]
  decide

end Arguments

section Component

variable {unit : Text} {slots : List Slot} (named : ∀ slot ∈ slots, slot.Named)

include named in
theorem mapM_contentArgument? : (slots.map fun slot => ' ' :: slotArgument slot).mapM contentArgument? =
    some (slots.map fun slot => (slot.property, slot.typeName)) := by
  induction slots with
  | nil => rfl
  | cons first others inductionHypothesis =>
      have head := (contentArgument?_slotArgument (named first List.mem_cons_self)).2
      have tail := inductionHypothesis fun slot member => named slot (List.mem_cons_of_mem first member)
      simp only [List.map_cons, List.mapM_cons, head, tail, Option.bind_eq_bind, Option.bind_some]
      rfl

include named in
theorem configurationArguments?_slots :
    configurationArguments? ("style.makeBody(configuration: Configuration(" ++
        Text.join ", " (slots.map slotArgument) ++ "))") =
      some (slots.map fun slot => (slot.property, slot.typeName)) := by
  simp only [configurationArguments?, List.append_assoc, Text.after?_append, Text.beforeEnd?_append,
    Option.bind_eq_bind, Option.bind_some]
  cases slots with
  | nil => rfl
  | cons first others =>
      have plain : ∀ piece ∈ slotArgument first :: others.map slotArgument, ',' ∉ piece := by
        intro piece member
        obtain ⟨slot, slotMember, rfl⟩ := List.mem_map.mp (List.map_cons ▸ member)
        exact comma_notMem_slotArgument (named slot slotMember)
      have nonempty : Text.join ", " (slotArgument first :: others.map slotArgument) ≠ [] := by
        obtain ⟨rest, joined⟩ :=
          Text.exists_join_cons ", " (slotArgument first) (others.map slotArgument)
        rw [joined]
        simp [slotArgument]
      have head := (contentArgument?_slotArgument (named first List.mem_cons_self)).1
      have tail := mapM_contentArgument? fun slot member => named slot (List.mem_cons_of_mem first member)
      rw [List.map_cons, if_neg nonempty, Text.splitOn_join plain, List.map_map, List.mapM_cons, head]
      simp only [Function.comp_def, tail, Option.bind_eq_bind, Option.bind_some]
      rfl

end Component

/-! ## Members of a component -/

section Members

variable (access : Option AccessLevel)

theorem lead_quiet : (AccessLevel.lead access).Quiet := by
  cases access with
  | none => decide
  | some level => cases level <;> decide

theorem stylePath?_lead (role : FragmentRole) {head : Char} (other : head ≠ '@') (rest : Text) :
    Fragment.stylePath? ⟨role, AccessLevel.lead access ++ head :: rest⟩ = none := by
  have absent : Text.nameBehind? "@Environment(\\." (AccessLevel.lead access ++ head :: rest) = none := by
    cases access with
    | none =>
        have apart : '@' ≠ head := Ne.symm other
        simp [AccessLevel.lead, Text.nameBehind?, Text.after?, List.isPrefixOf?, apart]
    | some level => cases level <;> rfl
  simp only [Fragment.stylePath?, absent, Option.bind_eq_bind, Option.bind_none]

theorem configurationAlias?_lead (role : FragmentRole) {head : Char}
    (other : head ∉ ['o', 'p', 'i', 'f', 't']) (rest : Text) :
    Fragment.configurationAlias? ⟨role, AccessLevel.lead access ++ head :: rest⟩ = none := by
  have passed := withoutAccess_lead access rest fun member =>
    other (List.mem_append_left ['t'] member)
  have apart : 't' ≠ head := by
    rintro rfl
    simp at other
  have absent : Text.nameBehind? "typealias Configuration = " (head :: rest) = none := by
    simp [Text.nameBehind?, Text.after?, List.isPrefixOf?, apart]
  rw [Fragment.configurationAlias?, passed, absent, Option.map_none]

theorem passedArguments?_of_quiet (role : FragmentRole) {text : Text} (quiet : text.Quiet)
    (nonempty : text ≠ []) : Fragment.passedArguments? ⟨role, text⟩ = none := by
  simp [Fragment.passedArguments?, Text.outline_of_inLine quiet.inLine nonempty]

end Members

section Component

variable (unit : Text) (component : Declaration)

def styleMember : Fragment :=
  ⟨.member, "@Environment(\\." ++ componentStyleProperty component.name ++ ") " ++
    AccessLevel.lead component.access ++ "var style"⟩

def aliasMember : Fragment :=
  ⟨.member, AccessLevel.lead component.access ++ "typealias Configuration = " ++
    configurationType (componentStyle component.name)⟩

def bodyMember : Fragment :=
  .member unit [
    .block (AccessLevel.lead component.access ++ "var body: some View") [
      .line ("style.makeBody(configuration: Configuration(" ++
        Text.join ", " ((componentSlots component).map slotArgument) ++ "))")]]

theorem componentFragments_eq : componentFragments unit component =
    [styleMember component, aliasMember component] ++
      (componentSlots component).map (slotClosure (AccessLevel.lead component.access)) ++
      [bodyMember unit component] := rfl

/-- What a reader finds in a component if it finds nothing in the closures of the slots. -/
theorem filterMap_componentFragments {Part : Type} (read : Fragment → Option Part)
    (closures : ∀ slot ∈ componentSlots component,
      read (slotClosure (AccessLevel.lead component.access) slot) = none) :
    (componentFragments unit component).filterMap read =
      (read (styleMember component)).toList ++ (read (aliasMember component)).toList ++
        (read (bodyMember unit component)).toList := by
  have none : ((componentSlots component).map
      (slotClosure (AccessLevel.lead component.access))).filterMap read = [] := by
    rw [List.filterMap_eq_nil_iff]
    intro fragment member
    obtain ⟨slot, slotMember, rfl⟩ := List.mem_map.mp member
    exact closures slot slotMember
  rw [componentFragments_eq, List.filterMap_append, List.filterMap_append, none, List.append_nil]
  simp only [List.filterMap_cons, List.filterMap_nil]
  cases read (styleMember component) <;> cases read (aliasMember component) <;>
    cases read (bodyMember unit component) <;> rfl

theorem exists_bodyMember_text : ∃ rest, bodyMember unit component =
    ⟨.member, AccessLevel.lead component.access ++ 'v' :: rest⟩ := by
  rw [bodyMember, Fragment.member, Code.text_block]
  simp only [List.append_assoc]
  exact ⟨_, rfl⟩

variable {unit component} (spaces : ∀ char ∈ unit, char = ' ') (name : component.name.Name)
  (parameters : ∀ parameter ∈ component.genericParameters, parameter.Name)

include parameters in
theorem componentSlots_named : ∀ slot ∈ componentSlots component, slot.Named := by
  intro slot member
  obtain ⟨parameter, parameterMember, rfl⟩ := List.mem_map.mp member
  exact Slot.ofType_named (parameters parameter parameterMember)

include parameters in
theorem slotArguments_quiet :
    (Text.join ", " ((componentSlots component).map slotArgument)).Quiet := by
  have slots := componentSlots_named parameters
  apply Text.join_induction (by decide)
  · exact fun _ _ first second => Text.quiet_append.mpr ⟨first, second⟩
  · decide
  · intro piece member
    obtain ⟨slot, slotMember, rfl⟩ := List.mem_map.mp member
    exact slotArgument_quiet (slots slot slotMember)

include name in
theorem componentStyleProperty_name : (componentStyleProperty component.name).Name :=
  (propertyOf_name name).append (by decide)

theorem slotClosure_eq (access : Text) (slot : Slot) : slotClosure access slot =
    ⟨.member, access ++ ("let " ++ (slot.property ++ (": () -> " ++ slot.typeName)))⟩ := by
  simp only [slotClosure, List.append_assoc]

include name in
/-- The component reads one key path of the environment. -/
theorem stylePath?_componentFragments :
    (componentFragments unit component).filterMap Fragment.stylePath? =
      [componentStyleProperty component.name] := by
  have property := componentStyleProperty_name name
  have style : (styleMember component).stylePath? =
      some (componentStyleProperty component.name) := by
    have first := Text.nameBehind?_append "@Environment(\\." property
      (Text.endsName_append (by decide : ") ".toList ≠ []) (by decide)
        (AccessLevel.lead component.access ++ "var style"))
    have ends : Text.endsWith (") " ++ (AccessLevel.lead component.access ++ "var style"))
        "var style" = true :=
      List.isSuffixOf_iff_suffix.mpr ((List.suffix_append _ _).trans (List.suffix_append _ _))
    simp only [Fragment.stylePath?, styleMember, List.append_assoc, first, ends,
      Option.bind_eq_bind, Option.bind_some, if_true]
  have aliased : (aliasMember component).stylePath? = none := by
    rw [aliasMember, List.append_assoc]
    exact stylePath?_lead _ _ (by decide : 't' ≠ '@') _
  have body : (bodyMember unit component).stylePath? = none := by
    obtain ⟨rest, exact⟩ := exists_bodyMember_text unit component
    rw [exact]
    exact stylePath?_lead _ _ (by decide) _
  rw [filterMap_componentFragments, style, aliased, body]
  · rfl
  · intro slot _
    rw [slotClosure_eq]
    exact stylePath?_lead _ _ (by decide : 'l' ≠ '@') _

include name in
theorem configurationAlias?_componentFragments :
    (componentFragments unit component).filterMap Fragment.configurationAlias? =
      [configurationType (componentStyle component.name)] := by
  have configuration : (configurationType (componentStyle component.name)).Name :=
    configurationType_name (name.append (by decide))
  have style : (styleMember component).configurationAlias? = none := by
    simp only [styleMember, List.append_assoc]
    exact configurationAlias?_lead none _ (by decide : '@' ∉ _) _
  have aliased : (aliasMember component).configurationAlias? =
      some (configurationType (componentStyle component.name)) := by
    have passed : withoutAccess (AccessLevel.lead component.access ++
        ("typealias Configuration = " ++ configurationType (componentStyle component.name))) =
        "typealias Configuration = " ++ configurationType (componentStyle component.name) :=
      withoutAccess_lead _ _ (by decide : 't' ∉ _)
    have first := Text.nameBehind?_append "typealias Configuration = " configuration
      (by decide : Text.EndsName [])
    rw [List.append_nil] at first
    simp only [Fragment.configurationAlias?, aliasMember, List.append_assoc, passed, first,
      Option.map_some]
  have body : (bodyMember unit component).configurationAlias? = none := by
    obtain ⟨rest, exact⟩ := exists_bodyMember_text unit component
    rw [exact]
    exact configurationAlias?_lead _ _ (by decide) _
  rw [filterMap_componentFragments, style, aliased, body]
  · rfl
  · intro slot _
    rw [slotClosure_eq]
    exact configurationAlias?_lead _ _ (by decide : 'l' ∉ _) _

include spaces parameters in
theorem passedArguments?_bodyMember : (bodyMember unit component).passedArguments? =
    some (component.genericParameters.map fun parameter => (parameter.lowerFirst, parameter)) := by
  have slots := componentSlots_named parameters
  have arguments := slotArguments_quiet parameters
  have solid : Text.trimStart (AccessLevel.lead component.access ++ "var body: some View") =
      AccessLevel.lead component.access ++ "var body: some View" := by
    cases component.access with
    | none => rfl
    | some level => cases level <;> rfl
  have tidy : (CodeLine.block (AccessLevel.lead component.access ++ "var body: some View") [
      .line ("style.makeBody(configuration: Configuration(" ++
        Text.join ", " ((componentSlots component).map slotArgument) ++ "))")]).Tidy := by
    refine ⟨⟨⟨?_, solid⟩, by simp⟩, ⟨?_, rfl⟩, trivial⟩
    · exact Text.quiet_append.mpr ⟨lead_quiet _, by decide⟩
    · simp only [Text.quiet_append, arguments, and_true]
      decide
  have outline : (bodyMember unit component).text.outline = _ := Code.outline_block spaces tidy
  have read := configurationArguments?_slots slots
  rw [Fragment.passedArguments?, outline]
  simp only [CodeLine.outline, CodeLine.outlineAll, List.findSome?_cons, List.cons_append, if_true,
    read, Nat.zero_ne_one, if_false]
  rw [componentSlots, List.map_map]
  rfl

include spaces name parameters in
/-- Only the body passes arguments on, one for each parameter in order. -/
theorem passedArguments?_componentFragments :
    (componentFragments unit component).filterMap Fragment.passedArguments? =
      [component.genericParameters.map fun parameter => (parameter.lowerFirst, parameter)] := by
  have slots := componentSlots_named parameters
  have lead := lead_quiet component.access
  have style : (styleMember component).passedArguments? = none := by
    apply passedArguments?_of_quiet
    · simp only [Text.quiet_append, (componentStyleProperty_name name).quiet, lead, and_true]
      decide
    · simp
  have aliased : (aliasMember component).passedArguments? = none := by
    have configuration : (configurationType (componentStyle component.name)).Name :=
      configurationType_name (name.append (by decide))
    apply passedArguments?_of_quiet
    · simp only [Text.quiet_append, configuration.quiet, lead, and_true, true_and]
      decide
    · simp
  rw [filterMap_componentFragments, style, aliased, passedArguments?_bodyMember spaces parameters]
  · rfl
  · intro slot member
    have named := slots slot member
    apply passedArguments?_of_quiet
    · simp only [Text.quiet_append, named.property.quiet, named.typeName.quiet, lead, and_true,
        true_and]
      decide
    · simp

end Component

end StyleMacros
