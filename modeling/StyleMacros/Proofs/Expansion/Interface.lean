import Mathlib.Data.List.Basic
import StyleMacros.Expansion.Invocation
import StyleMacros.Proofs.Text.Outline

/-!
# The interface of generated code

The generated declarations refer to each other by name only. The readers here take these names
from the text of a fragment: the types and properties that it declares, the key path and the keys
that it uses, and the arguments that it passes on. They know Swift's punctuation and keywords and
nothing of how the text was put together.
-/

set_option autoImplicit false

namespace StyleMacros

/-! ## Names in a text -/

def Text.name? (text : Text) : Option (Text × Text) :=
  let name := text.takeWhile (· ∉ punctuation)
  if name = [] then none else some (name, text.dropWhile (· ∉ punctuation))

def Text.nameBehind? (lead text : Text) : Option (Text × Text) :=
  (Text.after? lead text).bind Text.name?

/-- A nonempty text without marks. -/
structure Text.Name (text : Text) : Prop where
  nonempty : text ≠ []
  plain : ∀ char ∈ text, char ∉ punctuation

def Text.EndsName (text : Text) : Prop :=
  ∀ char ∈ text.head?, char ∈ punctuation

instance (text : Text) : Decidable text.EndsName :=
  match text with
  | [] => isTrue (fun _ first => nomatch first)
  | head :: _ =>
    decidable_of_iff (head ∈ punctuation) (by simp [Text.EndsName])

namespace Text

theorem name?_append {name rest : Text} (whole : name.Name) (ends : rest.EndsName) :
    name? (name ++ rest) = some (name, rest) := by
  have plain : ∀ char ∈ name, decide (char ∉ punctuation) = true := by simpa using whole.plain
  have taken : (name ++ rest).takeWhile (· ∉ punctuation) = name := by
    rw [List.takeWhile_append_of_pos plain]
    cases rest with
    | nil => simp
    | cons head others => simp [ends head rfl]
  have left : (name ++ rest).dropWhile (· ∉ punctuation) = rest := by
    rw [List.dropWhile_append_of_pos plain]
    cases rest with
    | nil => rfl
    | cons head others => simp [ends head rfl]
  rw [name?, taken, left]
  simp [whole.nonempty]

theorem after?_append (lead rest : Text) : after? lead (lead ++ rest) = some rest :=
  List.isPrefixOf?_eq_some_iff_append_eq.mpr rfl

theorem nameBehind?_append (lead : Text) {name rest : Text} (whole : name.Name)
    (ends : rest.EndsName) : nameBehind? lead (lead ++ (name ++ rest)) = some (name, rest) := by
  rw [nameBehind?, after?_append, Option.bind_some, name?_append whole ends]

theorem endsName_append {lead : Text} (nonempty : lead ≠ []) (ends : lead.EndsName) (rest : Text) :
    EndsName (lead ++ rest) := by
  cases lead with
  | nil => exact absurd rfl nonempty
  | cons head others => exact ends

theorem name_of_isIdentifier {name : Text} (word : name.isIdentifier = true) : name.Name where
  nonempty := by
    rintro rfl
    cases word
  plain := fun _ member =>
    notMem_punctuation_of_isIdentifierContinue (isIdentifierContinue_of_mem word member)

theorem Name.append {left right : Text} (first : left.Name)
    (second : ∀ char ∈ right, char ∉ punctuation) : (left ++ right).Name where
  nonempty := List.append_ne_nil_of_left_ne_nil first.nonempty right
  plain := by
    intro char member
    exact (List.mem_append.mp member).elim (first.plain char) (second char)

theorem Name.prepend {left right : Text} (first : ∀ char ∈ left, char ∉ punctuation)
    (second : right.Name) : (left ++ right).Name where
  nonempty := List.append_ne_nil_of_right_ne_nil left second.nonempty
  plain := by
    intro char member
    exact (List.mem_append.mp member).elim (first char) (second.plain char)

theorem Name.lowerFirst {name : Text} (whole : name.Name) : name.lowerFirst.Name := by
  cases name with
  | nil => exact whole
  | cons head rest =>
      constructor
      · exact List.append_ne_nil_of_left_ne_nil (lowercase_ne_nil head) rest
      · intro char member marks
        rcases List.mem_append.mp member with first | later
        · have same := eq_of_mark_mem_lowercase marks first
          exact whole.plain head List.mem_cons_self (same ▸ marks)
        · exact whole.plain char (List.mem_cons_of_mem head later) marks

theorem Name.quiet {name : Text} (whole : name.Name) : name.Quiet := by
  have listed : ∀ char ∈ ['\n', '\r', '\x7b', '\x7d'], char ∈ punctuation := by decide
  intro char member mark
  exact whole.plain char member (listed char mark)

end Text

/-! ## Single declarations -/

/-- The text without the access level that it begins with. -/
def withoutAccess (text : Text) : Text :=
  (AccessLevel.all.findSome? fun level => Text.after? (level.keyword ++ " ") text).getD text

namespace Fragment

/-- The name of the struct that the fragment declares. -/
def declaredType? (fragment : Fragment) : Option Text :=
  (Text.nameBehind? "struct " (withoutAccess fragment.text)).map Prod.fst

/-- The key path of the environment that the member `style` reads. -/
def stylePath? (fragment : Fragment) : Option Text := do
  let (property, rest) ← Text.nameBehind? "@Environment(\\." fragment.text
  if Text.endsWith rest "var style" then some property else none

def configurationAlias? (fragment : Fragment) : Option Text :=
  (Text.nameBehind? "typealias Configuration = " (withoutAccess fragment.text)).map Prod.fst

end Fragment

/-! ## Declarations with a body -/

/-- What a property of the environment is called, of which type it is, and under which keys its
value is read and written. -/
structure EnvironmentAccessor where
  property : Text
  type : Text
  keys : List Text

def typedVar? (line : Text) : Option (Text × Text) := do
  let (name, rest) ← Text.nameBehind? "var " line
  let (type, _) ← Text.nameBehind? ": " rest
  return (name, type)

def subscriptKey? (line : Text) : Option Text := do
  let (key, rest) ← Text.nameBehind? "self[" line
  let _ ← Text.after? ".self]" rest
  return key

namespace Fragment

/-- The first line declares a variable, the lines of its body use the keys. -/
def accessor? (fragment : Fragment) : Option EnvironmentAccessor :=
  match fragment.text.outline with
  | [] => none
  | (_, header) :: body =>
    (typedVar? header).map fun found =>
      ⟨found.1, found.2, body.filterMap fun line => subscriptKey? line.2⟩

/-- The key path that the body of a modifier writes, and the type of which it installs a value. -/
def installed? (fragment : Fragment) : Option (Text × Text) :=
  fragment.text.outline.findSome? fun line => do
    let (property, rest) ← Text.nameBehind? "environment(\\." line.2
    let (type, _) ← Text.nameBehind? ", " rest
    return (property, type)

end Fragment

/-! ## Configurations -/

/-- An argument that wraps the content that a closure of the argument's name makes. -/
def contentArgument? (piece : Text) : Option (Text × Text) := do
  let (label, rest) ← Text.name? ((Text.after? " " piece).getD piece)
  let (type, rest) ← Text.nameBehind? ": Configuration." rest
  let (content, rest) ← Text.nameBehind? "(content: " rest
  if content = label ∧ rest = "())".toList then some (label, type) else none

def Text.beforeEnd? (tail text : Text) : Option Text :=
  if Text.endsWith text tail then some (text.take (text.length - tail.length)) else none

/-- The labels and types of the arguments with which a body makes its configuration. -/
def configurationArguments? (line : Text) : Option (List (Text × Text)) := do
  let rest ← Text.after? "style.makeBody(configuration: Configuration(" line
  let arguments ← Text.beforeEnd? "))" rest
  if arguments = [] then some [] else (Text.splitOn ',' arguments).mapM contentArgument?

def Fragment.passedArguments? (fragment : Fragment) : Option (List (Text × Text)) :=
  fragment.text.outline.findSome? fun line =>
    if line.1 = 1 then configurationArguments? line.2 else none

/-- The name of a stored property, and the nested type that is its type. -/
def storedProperty? (line : Text) : Option (Text × Text) := do
  let (property, rest) ← Text.nameBehind? "public var " line
  let (type, rest) ← Text.nameBehind? ": Self." rest
  if rest = [] then some (property, type) else none

def storedProperties (outline : List (Nat × Text)) : List (Text × Text) :=
  outline.filterMap fun line => if line.1 = 1 then storedProperty? line.2 else none

def nestedStruct? (line : Nat × Text) : Option Text :=
  if line.1 = 1 then (Text.nameBehind? "public struct " line.2).map Prod.fst else none

/-- Whether a line in a nested struct declares an initialiser that takes a content. -/
def takesContent (line : Nat × Text) : Bool :=
  line.1 = 2 && (Text.after? "public init<Content: View>(content: " line.2).isSome

def contentTypes : List (Nat × Text) → List Text
  | [] => []
  | line :: rest =>
    match nestedStruct? line with
    | some name =>
      if (rest.takeWhile fun inner => 1 < inner.1).any takesContent then name :: contentTypes rest
      else contentTypes rest
    | none => contentTypes rest

end StyleMacros
