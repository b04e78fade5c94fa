import Mathlib.Data.List.DropRight
import StyleMacros.Proofs.Expansion.ComponentMembers

/-!
# Names that generated code declares

A line declares a name if it has one of Swift's declaring words, behind an attribute and an access
level or without them. The name goes up to the mark that Swift puts behind it, so what is read is
what stands there, identifier or not.
-/

set_option autoImplicit false

namespace StyleMacros

/-! ## Names in a line -/

/-- The words that a declared name stands behind, with the blank between. -/
def declaringWords : List Text :=
  ["associatedtype ", "func ", "let ", "static let ", "struct ", "typealias ", "var "]

def nameEnds : List Char :=
  [' ', ':', '(', '<']

def Text.withoutAttribute : Text → Text
  | '@' :: rest => (rest.dropWhile (· ≠ ' ')).drop 1
  | text => text

def nameOfDeclaration? (text : Text) : Option Text :=
  (declaringWords.findSome? fun word => Text.after? word (withoutAccess text)).map
    fun rest => rest.takeWhile (· ∉ nameEnds)

def declaredName? (line : Text) : Option Text :=
  nameOfDeclaration? line.trimStart.withoutAttribute

/-- The names that the lines of a fragment declare, in order. -/
def Fragment.declaredNames (fragment : Fragment) : List Text :=
  fragment.text.lines.filterMap declaredName?

/-- A text on one line in which nothing ends a declared name. -/
def Text.Unbroken (text : Text) : Prop :=
  ∀ char ∈ text, char ∉ '\n' :: '\r' :: nameEnds

instance (text : Text) : Decidable text.Unbroken :=
  inferInstanceAs (Decidable (∀ char ∈ text, char ∉ '\n' :: '\r' :: nameEnds))

namespace Text

@[simp] theorem unbroken_append {left right : Text} :
    Unbroken (left ++ right) ↔ left.Unbroken ∧ right.Unbroken := by
  simp only [Unbroken, List.mem_append, or_imp, forall_and]

theorem Unbroken.inLine {text : Text} (unbroken : text.Unbroken) : text.InLine :=
  ⟨fun member => unbroken _ member (by decide), fun member => unbroken _ member (by decide)⟩

theorem mem_punctuation_of_mem_nameEnds : ∀ char ∈ '\n' :: '\r' :: nameEnds, char ∈ punctuation := by
  decide

theorem Name.unbroken {text : Text} (name : text.Name) : text.Unbroken :=
  fun char member ends => name.plain char member (mem_punctuation_of_mem_nameEnds char ends)

theorem Unbroken.lowerFirst {text : Text} (unbroken : text.Unbroken) : text.lowerFirst.Unbroken := by
  cases text with
  | nil => exact unbroken
  | cons head rest =>
      refine unbroken_append.mpr ⟨fun char member ends => ?_, fun char member =>
        unbroken char (List.mem_cons_of_mem head member)⟩
      have same := eq_of_mark_mem_lowercase (mem_punctuation_of_mem_nameEnds char ends) member
      exact unbroken head List.mem_cons_self (same ▸ ends)

theorem Unbroken.passes {text : Text} (unbroken : text.Unbroken) :
    ∀ char ∈ text, decide (char ∉ nameEnds) = true :=
  fun char member => decide_eq_true fun inside => unbroken char member (by simp [inside])

theorem takeWhile_append_of_unbroken {name mark : Text} (unbroken : name.Unbroken)
    (ends : mark.head? ∈ nameEnds.map some) (rest : Text) :
    (name ++ (mark ++ rest)).takeWhile (· ∉ nameEnds) = name := by
  rw [List.takeWhile_append_of_pos unbroken.passes]
  cases mark with
  | nil => simp at ends
  | cons head others =>
      have inside : head ∈ nameEnds := by simpa using ends
      simp [inside]

end Text

theorem DottedName.text_unbroken (path : DottedName) : path.text.Unbroken := by
  intro char member ends
  have marks : ∀ char ∈ '\n' :: '\r' :: nameEnds, char ∈ punctuation ∧ char ≠ '.' := by decide
  exact path.ne_of_mem_text member (marks char ends).1 (marks char ends).2 rfl

def Declares (front : Text) : Prop :=
  ∃ access : Option AccessLevel, ∃ word ∈ declaringWords, AccessLevel.lead access ++ word = front

theorem declares_lead (access : Option AccessLevel) {word : Text} (listed : word ∈ declaringWords) :
    Declares (AccessLevel.lead access ++ word) :=
  ⟨access, word, listed, rfl⟩

theorem declares_var : Declares "var " :=
  ⟨none, "var ", by decide, rfl⟩

theorem declares_public_var : Declares "public var " :=
  ⟨some .public_, "var ", by decide, rfl⟩

theorem declares_public_func : Declares "public func " :=
  ⟨some .public_, "func ", by decide, rfl⟩

theorem declares_struct : Declares "struct " :=
  ⟨none, "struct ", by decide, rfl⟩

theorem declares_public_struct : Declares "public struct " :=
  ⟨some .public_, "struct ", by decide, rfl⟩

section Line

variable {front : Text} (declares : Declares front)

include declares in
theorem reads_of_declares (rest : Text) :
    Text.withoutAttribute (Text.trimStart (front ++ rest)) = front ++ rest ∧
      nameOfDeclaration? (front ++ rest) = some (rest.takeWhile (· ∉ nameEnds)) := by
  obtain ⟨access, word, listed, rfl⟩ := declares
  simp only [declaringWords, List.mem_cons, List.not_mem_nil, or_false] at listed
  rcases listed with rfl | rfl | rfl | rfl | rfl | rfl | rfl <;> cases access with
  | none => exact ⟨rfl, rfl⟩
  | some level => cases level <;> exact ⟨rfl, rfl⟩

include declares in
theorem declaredName?_of_declares {name mark : Text} (unbroken : name.Unbroken)
    (ends : mark.head? ∈ nameEnds.map some) (rest : Text) :
    declaredName? (front ++ (name ++ (mark ++ rest))) = some name := by
  obtain ⟨bare, named⟩ := reads_of_declares declares (name ++ (mark ++ rest))
  rw [declaredName?, bare, named, Text.takeWhile_append_of_unbroken unbroken ends]

include declares in
/-- An attribute is passed over, and the name may be the last of its line. -/
theorem declaredName?_attribute {used : Text} (solid : ' ' ∉ used) {name : Text}
    (unbroken : name.Unbroken) :
    declaredName? ('@' :: (used ++ ' ' :: (front ++ name))) = some name := by
  have bare : Text.withoutAttribute (Text.trimStart ('@' :: (used ++ ' ' :: (front ++ name)))) =
      front ++ name := by
    have solid : ∀ char ∈ used, decide (char ≠ ' ') = true := fun char member =>
      decide_eq_true fun same => solid (same ▸ member)
    change ((used ++ ' ' :: _).dropWhile (· ≠ ' ')).drop 1 = _
    rw [List.dropWhile_append_of_pos solid]
    rfl
  rw [declaredName?, bare, (reads_of_declares declares _).2,
    List.takeWhile_eq_self_iff.mpr unbroken.passes]

end Line

/-! ## Names in generated code -/

/-- No line of the element breaks, and together they declare these names. -/
def CodeLine.Yields (line : CodeLine) (names : List Text) : Prop :=
  (∀ text ∈ line.lines, text.InLine) ∧ line.lines.filterMap declaredName? = names

def CodeLine.AllYield (lines : List CodeLine) (names : List Text) : Prop :=
  (∀ text ∈ CodeLine.linesAll lines, text.InLine) ∧
    (CodeLine.linesAll lines).filterMap declaredName? = names

instance (line : CodeLine) (names : List Text) : Decidable (line.Yields names) :=
  inferInstanceAs (Decidable (_ ∧ _))

instance (lines : List CodeLine) (names : List Text) : Decidable (CodeLine.AllYield lines names) :=
  inferInstanceAs (Decidable (_ ∧ _))

namespace CodeLine

theorem filterMap_singleton_toList (text : Text) :
    [text].filterMap declaredName? = (declaredName? text).toList := by
  cases name : declaredName? text <;> simp [name]

theorem Yields.line {text : Text} {found : Option Text} (inLine : text.InLine)
    (declared : declaredName? text = found) : (CodeLine.line text).Yields found.toList :=
  ⟨List.forall_mem_singleton.mpr inLine, declared ▸ filterMap_singleton_toList text⟩

theorem Yields.blank : CodeLine.blank.Yields [] := by
  decide

theorem allYield_nil : AllYield [] [] :=
  ⟨by simp [linesAll], rfl⟩

theorem AllYield.cons {head : CodeLine} {rest : List CodeLine} {first others : List Text}
    (yields : head.Yields first) (later : AllYield rest others) :
    AllYield (head :: rest) (first ++ others) :=
  ⟨List.forall_mem_append.mpr ⟨yields.1, later.1⟩, by
    rw [linesAll, List.filterMap_append, yields.2, later.2]⟩

theorem Yields.single {line : CodeLine} {names : List Text} (yields : line.Yields names) :
    AllYield [line] names := by
  simpa only [List.append_nil] using AllYield.cons yields allYield_nil

theorem AllYield.append {front back : List CodeLine} {first second : List Text}
    (left : AllYield front first) (right : AllYield back second) :
    AllYield (front ++ back) (first ++ second) := by
  have split : linesAll (front ++ back) = linesAll front ++ linesAll back := by
    simp only [linesAll_eq_flatMap, List.flatMap_append]
  refine ⟨split ▸ List.forall_mem_append.mpr ⟨left.1, right.1⟩, ?_⟩
  rw [split, List.filterMap_append, left.2, right.2]

theorem allYield_map {Item : Type} {items : List Item} {write : Item → CodeLine}
    {names : Item → List Text} (each : ∀ item ∈ items, (write item).Yields (names item)) :
    AllYield (items.map write) (items.flatMap names) := by
  induction items with
  | nil => exact allYield_nil
  | cons first others inductionHypothesis =>
      exact .cons (each first List.mem_cons_self)
        (inductionHypothesis fun item member => each item (List.mem_cons_of_mem first member))

theorem Yields.block {header : Text} {body : List CodeLine} {found : Option Text} {names : List Text}
    (inLine : header.InLine) (declared : declaredName? (header ++ " \x7b") = found)
    (inner : AllYield body names) : (CodeLine.block header body).Yields (found.toList ++ names) := by
  constructor
  · refine List.forall_mem_cons.mpr ⟨Text.inLine_append.mpr ⟨inLine, by decide⟩, ?_⟩
    exact List.forall_mem_append.mpr ⟨inner.1, List.forall_mem_singleton.mpr (by decide)⟩
  · have closing : ["\x7d".toList].filterMap declaredName? = [] := rfl
    rw [lines, ← List.singleton_append, List.filterMap_append, filterMap_singleton_toList, declared,
      List.filterMap_append, inner.2]
    exact congrArg _ ((congrArg _ closing).trans (List.append_nil names))

end CodeLine

theorem declaredName?_trimStart (line : Text) : declaredName? line.trimStart = declaredName? line := by
  rw [declaredName?, declaredName?, Text.trimStart, Text.trimStart, List.dropWhile_idempotent]

theorem Fragment.declaredNames_of_inLine (role : FragmentRole) {text : Text} (inLine : text.InLine)
    (nonempty : text ≠ []) : Fragment.declaredNames ⟨role, text⟩ = (declaredName? text).toList := by
  rw [Fragment.declaredNames, Text.lines_of_inLine inLine nonempty,
    CodeLine.filterMap_singleton_toList]

/-- Indentation does not matter to the names that code declares. -/
theorem Fragment.declaredNames_block {unit : Text} (blank : ∀ char ∈ unit, char = ' ')
    (role : FragmentRole) {header : Text} {body : List CodeLine} {names : List Text}
    (yields : (CodeLine.block header body).Yields names) :
    Fragment.declaredNames ⟨role, Code.text unit [.block header body]⟩ = names := by
  have trimmed (lines : List Text) :
      lines.filterMap declaredName? = (lines.map Text.trimStart).filterMap declaredName? := by
    rw [List.filterMap_map]
    exact congrArg (List.filterMap · lines) (funext fun line => (declaredName?_trimStart line).symm)
  rw [Fragment.declaredNames, trimmed, Code.lines_block blank yields.1, ← trimmed, yields.2]

section Derived

variable {style : Text} (unbroken : style.Unbroken)

include unbroken in
theorem configurationType_unbroken : (configurationType style).Unbroken :=
  Text.unbroken_append.mpr ⟨unbroken, by decide⟩

include unbroken in
theorem defaultType_unbroken : (defaultType style).Unbroken :=
  Text.unbroken_append.mpr ⟨by decide, unbroken⟩

include unbroken in
theorem erasedType_unbroken : (erasedType style).Unbroken :=
  Text.unbroken_append.mpr ⟨by decide, unbroken⟩

include unbroken in
theorem keyType_unbroken : (keyType style).Unbroken :=
  Text.unbroken_append.mpr ⟨unbroken, by decide⟩

include unbroken in
theorem propertyOf_unbroken : (propertyOf style).Unbroken :=
  unbroken.lowerFirst

end Derived

section Environment

variable {unit style : Text} (blank : ∀ char ∈ unit, char = ' ') (unbroken : style.Unbroken)

include blank unbroken in
theorem declaredNames_accessorMember :
    (accessorMember unit style).declaredNames = [propertyOf style] := by
  have property := propertyOf_unbroken unbroken
  have erased := (erasedType_unbroken unbroken).inLine
  have key := (keyType_unbroken unbroken).inLine
  have inLine : Text.InLine ("var " ++ propertyOf style ++ ": " ++ erasedType style) := by
    simp only [Text.inLine_append, property.inLine, erased]
    decide
  have header : declaredName? ("var " ++ propertyOf style ++ ": " ++ erasedType style ++ " \x7b") =
      some (propertyOf style) := by
    simpa only [List.append_assoc] using declaredName?_of_declares declares_var property
      (by decide : ": ".toList.head? ∈ nameEnds.map some) (erasedType style ++ " \x7b")
  have accessor {head mark : Text} (headInLine : head.InLine) (markInLine : mark.InLine)
      (nothing : declaredName? (head ++ " \x7b") = none) :
      (CodeLine.block head [.line ("self[" ++ keyType style ++ mark)]).Yields [] := by
    have line : (CodeLine.line ("self[" ++ keyType style ++ mark)).Yields [] :=
      .line (by simp only [Text.inLine_append, key, markInLine]; decide) rfl
    exact .block headInLine nothing line.single
  have getter := accessor (by decide : Text.InLine "get") (by decide : Text.InLine ".self]") rfl
  have setter := accessor (by decide : Text.InLine "set")
    (by decide : Text.InLine ".self] = newValue") rfl
  have member := CodeLine.Yields.block inLine header (.cons getter setter.single)
  exact Fragment.declaredNames_block blank .member member

include blank unbroken in
theorem declaredNames_modifierMember :
    (modifierMember unit style).declaredNames = [propertyOf style] := by
  have property := propertyOf_unbroken unbroken
  have erased := (erasedType_unbroken unbroken).inLine
  have inLine : Text.InLine ("public func " ++ propertyOf style ++ "(_ style: some " ++ style ++
      ") -> some View") := by
    simp only [Text.inLine_append, property.inLine, unbroken.inLine]
    decide
  have header : declaredName? ("public func " ++ propertyOf style ++ "(_ style: some " ++ style ++
      ") -> some View" ++ " \x7b") = some (propertyOf style) := by
    simpa only [List.append_assoc] using declaredName?_of_declares declares_public_func property
      (by decide : "(_ style: some ".toList.head? ∈ nameEnds.map some)
      (style ++ (") -> some View" ++ " \x7b"))
  have installed : (CodeLine.line ("environment(\\." ++ propertyOf style ++ ", " ++
      erasedType style ++ "(style: style))")).Yields [] :=
    .line (by simp only [Text.inLine_append, property.inLine, erased]; decide) rfl
  have member := CodeLine.Yields.block inLine header installed.single
  exact Fragment.declaredNames_block blank .member member

end Environment

section Slot

variable {slot : Slot} (named : slot.Named)

include named in
theorem declaredName?_slotWrapper :
    declaredName? ("public struct " ++ slot.typeName ++ ": View" ++ " \x7b") = some slot.typeName := by
  simpa only [List.append_assoc] using declaredName?_of_declares declares_public_struct
    named.typeName.unbroken
    (by decide : ": View".toList.head? ∈ nameEnds.map some) " \x7b"

include named in
theorem declaredName?_slotProperty :
    declaredName? ("public var " ++ slot.property ++ ": Self." ++ slot.typeName) =
      some slot.property := by
  simpa only [List.append_assoc] using declaredName?_of_declares declares_public_var
    named.property.unbroken
    (by decide : ": Self.".toList.head? ∈ nameEnds.map some) slot.typeName

include named in
theorem slotWrapper_yields : (slotWrapper slot).Yields [slot.typeName, "body"] := by
  have inner : CodeLine.AllYield [.line "public var body: AnyView", .blank,
      .block "public init<Content: View>(content: Content)" [.line "body = AnyView(content)"]]
      ["body"] := by decide
  exact .block (by simp only [Text.inLine_append, named.typeName.unbroken.inLine]; decide)
    (declaredName?_slotWrapper named) inner

include named in
theorem slotProperty_yields : (slotProperty slot).Yields [slot.property] :=
  .line (by simp only [Text.inLine_append, named.property.unbroken.inLine,
    named.typeName.unbroken.inLine]; decide) (declaredName?_slotProperty named)

end Slot

section Style

variable {unit style : Text} (blank : ∀ char ∈ unit, char = ' ') (unbroken : style.Unbroken)
  {slots : List Slot} (named : ∀ slot ∈ slots, slot.Named)

include unbroken in
theorem declaredNames_styleMembers : (styleMembers style).flatMap Fragment.declaredNames =
    ["Body".toList, "Configuration".toList, "makeBody".toList] := by
  have configuration := (configurationType_unbroken unbroken).inLine
  have aliased : Text.InLine ("typealias Configuration = " ++ configurationType style) :=
    Text.inLine_append.mpr ⟨by decide, configuration⟩
  have body : declaredName? "associatedtype Body: View" = some "Body".toList := by decide
  have renamed (rest : Text) : declaredName? ("typealias Configuration = " ++ rest) =
      some "Configuration".toList := rfl
  have made : declaredName?
      "@ViewBuilder func makeBody(configuration: Self.Configuration) -> Self.Body" =
        some "makeBody".toList := by
    decide
  simp only [styleMembers, List.flatMap_cons, List.flatMap_nil]
  rw [Fragment.declaredNames_of_inLine .member (by decide) (by decide), body,
    Fragment.declaredNames_of_inLine .member aliased (by simp), renamed,
    Fragment.declaredNames_of_inLine .member (by decide) (by decide), made]
  rfl

include named in
theorem slotStack_yields : (slotStack slots).Yields [] := by
  unfold slotStack
  split
  · exact ⟨by decide, by decide⟩
  · have each : CodeLine.AllYield (slots.map fun slot => .line ("configuration." ++ slot.property))
        (slots.flatMap fun _ => []) := by
      refine CodeLine.allYield_map fun slot member => .line ?_
        (rfl : declaredName? ("configuration." ++ slot.property) = none)
      exact Text.inLine_append.mpr ⟨by decide, (named slot member).property.unbroken.inLine⟩
    have nothing : slots.flatMap (fun _ => ([] : List Text)) = [] := by simp
    have header : declaredName? ("VStack".toList ++ " \x7b") = none := rfl
    exact nothing ▸ CodeLine.Yields.block (by decide) header each

include blank unbroken named in
theorem declaredNames_defaultPeer :
    (defaultPeer unit style slots).declaredNames = [defaultType style, "makeBody"] := by
  have fallback := defaultType_unbroken unbroken
  have inLine : Text.InLine ("public struct " ++ defaultType style ++ ": " ++ style) := by
    simp only [Text.inLine_append, fallback.inLine, unbroken.inLine]
    decide
  have header : declaredName? ("public struct " ++ defaultType style ++ ": " ++ style ++ " \x7b") =
      some (defaultType style) := by
    simpa only [List.append_assoc] using declaredName?_of_declares declares_public_struct fallback
      (by decide : ": ".toList.head? ∈ nameEnds.map some) (style ++ " \x7b")
  have created : CodeLine.AllYield [.line "public init() \x7b\x7d", .blank] [] := by
    decide
  have made : declaredName? ("public func makeBody(configuration: Configuration) -> some View".toList ++
      " \x7b") = some "makeBody".toList := by
    decide
  have makes := CodeLine.Yields.block (by decide) made (slotStack_yields named).single
  have peer := CodeLine.Yields.block inLine header (created.append makes.single)
  exact Fragment.declaredNames_block blank .peer peer

include blank unbroken in
theorem declaredNames_erasedPeer :
    (erasedPeer unit style).declaredNames = [erasedType style, "_makeBody", "makeBody"] := by
  have erased := erasedType_unbroken unbroken
  have inLine : Text.InLine ("struct " ++ erasedType style ++ ": " ++ style) := by
    simp only [Text.inLine_append, erased.inLine, unbroken.inLine]
    decide
  have header : declaredName? ("struct " ++ erasedType style ++ ": " ++ style ++ " \x7b") =
      some (erasedType style) := by
    simpa only [List.append_assoc] using declaredName?_of_declares declares_struct erased
      (by decide : ": ".toList.head? ∈ nameEnds.map some) (style ++ " \x7b")
  have stored : CodeLine.AllYield [.line "private var _makeBody: (Configuration) -> AnyView", .blank]
      ["_makeBody"] := by
    decide
  have assigned : CodeLine.AllYield [.opening "_makeBody = \x7b configuration in",
      .line "AnyView(style.makeBody(configuration: configuration))", .closing "\x7d"] [] := by
    decide
  have made : CodeLine.AllYield [.blank,
      .block "func makeBody(configuration: Configuration) -> some View" [
        .line "_makeBody(configuration)"]] ["makeBody"] := by
    decide
  have createdInLine : Text.InLine ("init(style: some " ++ style ++ ")") := by
    simp only [Text.inLine_append, unbroken.inLine]
    decide
  have created : (CodeLine.block ("init(style: some " ++ style ++ ")") _).Yields [] :=
    .block createdInLine rfl assigned
  have peer := CodeLine.Yields.block inLine header (stored.append (.cons created made))
  exact Fragment.declaredNames_block blank .peer peer

include blank unbroken in
theorem declaredNames_keyPeer :
    (keyPeer unit style).declaredNames = [keyType style, "defaultValue"] := by
  have key := keyType_unbroken unbroken
  have erased := (erasedType_unbroken unbroken).inLine
  have fallback := (defaultType_unbroken unbroken).inLine
  have inLine : Text.InLine ("struct " ++ keyType style ++ ": EnvironmentKey") := by
    simp only [Text.inLine_append, key.inLine]
    decide
  have header : declaredName? ("struct " ++ keyType style ++ ": EnvironmentKey" ++ " \x7b") =
      some (keyType style) := by
    simpa only [List.append_assoc] using declaredName?_of_declares declares_struct key
      (by decide : ": EnvironmentKey".toList.head? ∈ nameEnds.map some) " \x7b"
  have named (rest : Text) : declaredName? ("static let defaultValue = " ++ rest) =
      some "defaultValue".toList := rfl
  have declared : declaredName? ("static let defaultValue = " ++ erasedType style ++ "(style: " ++
      defaultType style ++ "())") = some "defaultValue".toList := by
    simpa only [List.append_assoc] using named _
  have value : (CodeLine.line ("static let defaultValue = " ++ erasedType style ++ "(style: " ++
      defaultType style ++ "())")).Yields ["defaultValue"] :=
    .line (by simp only [Text.inLine_append, erased, fallback]; decide) declared
  have peer := CodeLine.Yields.block inLine header value.single
  exact Fragment.declaredNames_block blank .peer peer

include blank unbroken named in
theorem declaredNames_configurationPeer :
    (configurationPeer unit style slots).declaredNames = configurationType style ::
      (slots.flatMap (fun slot => [slot.typeName, "body".toList]) ++ slots.map Slot.property) := by
  have configuration := configurationType_unbroken unbroken
  have header (mark : Text) (ends : mark.head? ∈ nameEnds.map some) :
      declaredName? ("public struct " ++ configurationType style ++ mark) =
        some (configurationType style) := by
    simpa only [List.append_assoc, List.append_nil] using
      declaredName?_of_declares declares_public_struct configuration ends []
  have inLine : Text.InLine ("public struct " ++ configurationType style) :=
    Text.inLine_append.mpr ⟨by decide, configuration.inLine⟩
  by_cases empty : slots = []
  · rw [empty, configurationPeer_nil, Fragment.declaredNames_of_inLine .peer
      (Text.inLine_append.mpr ⟨inLine, by decide⟩) (by simp), header _ (by decide)]
    rfl
  · have wrappers := CodeLine.allYield_map fun slot member => slotWrapper_yields (named slot member)
    have properties := CodeLine.allYield_map fun slot member => slotProperty_yields (named slot member)
    have single : slots.flatMap (fun slot => [slot.property]) = slots.map Slot.property :=
      List.flatMap_pure_eq_map ..
    have inner := wrappers.append (.cons .blank properties)
    rw [single] at inner
    have peer := CodeLine.Yields.block inLine (header " \x7b" (by decide)) inner
    rw [configurationPeer_of_ne_nil empty]
    exact Fragment.declaredNames_block blank .peer peer

end Style

section Component

variable {unit : Text} (blank : ∀ char ∈ unit, char = ' ') {component : Declaration}

theorem inLine_lead (access : Option AccessLevel) : (AccessLevel.lead access).InLine :=
  (lead_quiet access).inLine

theorem declaredNames_styleMember (unbroken : component.name.Unbroken) :
    (styleMember component).declaredNames = ["style".toList] := by
  have property : (componentStyleProperty component.name).Unbroken :=
    Text.unbroken_append.mpr ⟨unbroken.lowerFirst, by decide⟩
  have solid : ' ' ∉ "Environment(\\.".toList ++ (componentStyleProperty component.name ++ ")") := by
    have inside : ' ' ∉ componentStyleProperty component.name := fun member =>
      property ' ' member (by decide)
    simp [inside]
  have declares := declares_lead component.access (by decide : "var ".toList ∈ _)
  have declared := declaredName?_attribute declares solid (by decide : Text.Unbroken "style")
  rw [styleMember, Fragment.declaredNames_of_inLine .member _ (by simp)]
  · refine congrArg Option.toList (Eq.trans ?_ declared)
    simp [List.append_assoc]
  · simp only [Text.inLine_append, property.inLine, inLine_lead]
    decide

theorem declaredNames_aliasMember (unbroken : component.name.Unbroken) :
    (aliasMember component).declaredNames = ["Configuration".toList] := by
  have style : (componentStyle component.name).Unbroken :=
    Text.unbroken_append.mpr ⟨unbroken, by decide⟩
  have words : "typealias Configuration = ".toList = "typealias " ++ ("Configuration" ++ " = ") := by
    decide
  have declares := declares_lead component.access (by decide : "typealias ".toList ∈ _)
  have declared := declaredName?_of_declares declares (by decide : Text.Unbroken "Configuration")
    (by decide : " = ".toList.head? ∈ nameEnds.map some)
    (configurationType (componentStyle component.name))
  rw [aliasMember, Fragment.declaredNames_of_inLine .member _ (by simp)]
  · refine congrArg Option.toList (Eq.trans ?_ declared)
    simp only [words, List.append_assoc]
  · simp only [Text.inLine_append, (configurationType_unbroken style).inLine, inLine_lead]
    decide

theorem declaredNames_slotClosure (access : Option AccessLevel) {slot : Slot} (named : slot.Named) :
    (slotClosure (AccessLevel.lead access) slot).declaredNames = [slot.property] := by
  have declares := declares_lead access (by decide : "let ".toList ∈ _)
  have declared := declaredName?_of_declares declares named.property.unbroken
    (by decide : ": () -> ".toList.head? ∈ nameEnds.map some) slot.typeName
  rw [slotClosure, Fragment.declaredNames_of_inLine .member _ (by simp)]
  · refine congrArg Option.toList (Eq.trans ?_ declared)
    simp only [List.append_assoc]
  · simp only [Text.inLine_append, named.property.unbroken.inLine, named.typeName.unbroken.inLine,
      inLine_lead]
    decide

include blank in
theorem declaredNames_bodyMember
    (parameters : ∀ parameter ∈ component.genericParameters, parameter.Name) :
    (bodyMember unit component).declaredNames = ["body".toList] := by
  have words : "var body: some View".toList = "var " ++ ("body" ++ ": some View") := by decide
  have declares := declares_lead component.access (by decide : "var ".toList ∈ _)
  have declared := declaredName?_of_declares declares (by decide : Text.Unbroken "body")
    (by decide : ": some View".toList.head? ∈ nameEnds.map some) " \x7b"
  have header : declaredName? (AccessLevel.lead component.access ++ "var body: some View" ++ " \x7b") =
      some "body".toList := by
    refine Eq.trans ?_ declared
    simp only [words, List.append_assoc]
  have arguments := (slotArguments_quiet parameters).inLine
  have inLine : Text.InLine (AccessLevel.lead component.access ++ "var body: some View") :=
    Text.inLine_append.mpr ⟨inLine_lead component.access, by decide⟩
  have made : (CodeLine.line ("style.makeBody(configuration: Configuration(" ++
      Text.join ", " ((componentSlots component).map slotArgument) ++ "))")).Yields [] :=
    .line (by simp only [Text.inLine_append, arguments]; decide) rfl
  have member := CodeLine.Yields.block inLine header made.single
  exact Fragment.declaredNames_block blank .member member

include blank in
/-- What a component declares besides its slots does not depend on it. -/
theorem declaredNames_componentFragments (unbroken : component.name.Unbroken)
    (parameters : ∀ parameter ∈ component.genericParameters, parameter.Name) :
    (componentFragments unit component).flatMap Fragment.declaredNames =
      ["style".toList, "Configuration".toList] ++
        component.genericParameters.map Text.lowerFirst ++ ["body".toList] := by
  have slots := componentSlots_named parameters
  have closures : (componentSlots component).flatMap (fun slot =>
      (slotClosure (AccessLevel.lead component.access) slot).declaredNames) =
      component.genericParameters.map Text.lowerFirst := by
    rw [List.flatMap_congr fun slot member => declaredNames_slotClosure component.access
      (slots slot member), componentSlots, List.flatMap_map]
    exact List.flatMap_pure_eq_map ..
  rw [componentFragments_eq, List.flatMap_append, List.flatMap_append, List.flatMap_map, closures]
  simp only [List.flatMap_cons, List.flatMap_nil, declaredNames_styleMember unbroken,
    declaredNames_aliasMember unbroken, declaredNames_bodyMember blank parameters]
  rfl

end Component

/-! ## Names that a use declares -/

def Use.declaredNames (declaration : Declaration) : Use → List Text
  | .style subViews =>
    ["Body".toList, "Configuration", "makeBody"] ++ configurationType declaration.name ::
      (subViews.flatMap (fun subView => [subView, "body".toList]) ++ subViews.map Text.lowerFirst) ++
      [defaultType declaration.name, "makeBody", erasedType declaration.name, "_makeBody", "makeBody",
        keyType declaration.name, "defaultValue"]
  | .registerStyle name => [propertyOf name]
  | .convenienceModifier name => [propertyOf name]
  | .component =>
    ["style".toList, "Configuration"] ++ declaration.genericParameters.map Text.lowerFirst ++
      ["body".toList]

theorem Use.declaredNames_fragments {unit : Text} (blank : ∀ char ∈ unit, char = ' ')
    {declaration : Declaration} (unbroken : declaration.name.Unbroken)
    (parameters : ∀ parameter ∈ declaration.genericParameters, parameter.Name) {use : Use}
    (named : use.Named) : (use.fragments unit declaration).flatMap Fragment.declaredNames =
      use.declaredNames declaration := by
  cases use with
  | style subViews =>
      have slots : ∀ slot ∈ subViews.map Slot.ofType, slot.Named := by
        intro slot member
        obtain ⟨subView, inside, rfl⟩ := List.mem_map.mp member
        exact Slot.ofType_named (Text.name_of_isIdentifier (named subView inside))
      have configuration := declaredNames_configurationPeer blank unbroken slots
      rw [List.flatMap_map, List.map_map] at configuration
      rw [Use.fragments, styleFragments, List.flatMap_append, declaredNames_styleMembers unbroken]
      simp only [List.flatMap_cons, List.flatMap_nil, configuration,
        declaredNames_defaultPeer blank unbroken slots, declaredNames_erasedPeer blank unbroken,
        declaredNames_keyPeer blank unbroken]
      simp only [Use.declaredNames, List.append_assoc, List.cons_append, List.nil_append]
      rfl
  | registerStyle name =>
      have unbroken : name.Unbroken := (Text.name_of_isIdentifier named).unbroken
      rw [Use.fragments, List.flatMap_singleton, declaredNames_accessorMember blank unbroken]
      rfl
  | convenienceModifier name =>
      have unbroken : name.Unbroken := (Text.name_of_isIdentifier named).unbroken
      rw [Use.fragments, List.flatMap_singleton, declaredNames_modifierMember blank unbroken]
      rfl
  | component => exact declaredNames_componentFragments blank unbroken parameters

end StyleMacros
