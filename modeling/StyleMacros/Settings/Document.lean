import StyleMacros.Settings
import StyleMacros.Text.Quoted
import StyleMacros.Yaml.Value

/-!
# Settings from a document

Settings are written as a YAML mapping from field names to scalars. A field that is not written
keeps its standard value. The first thing in the document that does not fit is the fault, and a
text that is no YAML document with a value at all is a fault of its own.
-/

set_option autoImplicit false

namespace StyleMacros

open Yaml

/-! ## Faults -/

inductive Found where
  | scalar (value : ScalarValue)
  | sequence
  | mapping

inductive Wanted where
  | settings | fieldName | string | size

inductive SettingsField where
  | environmentType | viewType | indentWidth | fileExtension | outputSuffix | header
  deriving DecidableEq

inductive DocumentFault where
  | wrongType (found : Found) (wanted : Wanted)
  | unknownField (name : Text)
  | repeatedField (field : SettingsField)

inductive SettingsError where
  | unreadable
  /-- Something in the document does not fit; `path` says where, with the field if there is
  one. -/
  | document (fault : DocumentFault) (path : Option Text) (place : Place)
  | inadmissible (fault : SettingsFault)

namespace SettingsField

def all : List SettingsField :=
  [.environmentType, .viewType, .indentWidth, .fileExtension, .outputSuffix, .header]

def name : SettingsField → Text
  | .environmentType => "environment_type"
  | .viewType => "view_type"
  | .indentWidth => "indent_width"
  | .fileExtension => "file_extension"
  | .outputSuffix => "output_suffix"
  | .header => "header"

def ofName? (name : Text) : Option SettingsField :=
  all.find? fun field => field.name = name

end SettingsField

def integerText (value : Int) : Text :=
  if value < 0 then '-' :: Text.ofNat value.natAbs else Text.ofNat value.natAbs

def Found.describe : Found → Text
  | .scalar .null => "unit value"
  | .scalar (.bool value) => "boolean `" ++ (if value then "true" else "false") ++ "`"
  | .scalar (.integer value) => "integer `" ++ integerText value ++ "`"
  | .scalar (.wideInteger value) =>
    "integer `" ++ integerText value ++ "` as " ++ (if value < 0 then "i128" else "u128")
  | .scalar (.real value) => "floating point `" ++ value.text ++ "`"
  | .scalar (.string text) => "string " ++ text.quoted
  | .sequence => "sequence"
  | .mapping => "map"

def Wanted.describe : Wanted → Text
  | .settings => "struct Config"
  | .fieldName => "field identifier"
  | .string => "a string"
  | .size => "usize"

def backquoted (name : Text) : Text :=
  "`" ++ name ++ "`"

def DocumentFault.message : DocumentFault → Text
  | .wrongType found wanted =>
    "invalid type: " ++ found.describe ++ ", expected " ++ wanted.describe
  | .unknownField name =>
    "unknown field " ++ backquoted name ++ ", expected one of " ++
      Text.join ", " (SettingsField.all.map fun field => backquoted field.name)
  | .repeatedField field => "duplicate field " ++ backquoted field.name

/-- The place in lines and columns from one, left out at the very start. -/
def placeText (place : Place) : Text :=
  if place.line = 0 && place.column = 0 then []
  else " at line " ++ Text.ofNat (place.line + 1) ++ " column " ++ Text.ofNat (place.column + 1)

def SettingsError.message : SettingsError → Text
  | .unreadable => "not a readable document"
  | .document fault none place => fault.message ++ placeText place
  | .document fault (some path) place => path ++ ": " ++ fault.message ++ placeText place
  | .inadmissible fault => fault.message

def SettingsError.diagnostic (error : SettingsError) : Diagnostic :=
  .config error.message

/-! ## Reading -/

namespace Settings

/-- What a node is. A scalar whose tag does not fit counts as its text. -/
def found : Node → Found
  | .scalar text style tag _ => .scalar ((scalarValue? text style tag).getD (.string text))
  | .sequence _ _ _ => .sequence
  | .mapping _ _ _ => .mapping

def wrongType (node : Node) (wanted : Wanted) (path : Option Text) : SettingsError :=
  .document (.wrongType (found node) wanted) path node.place

/-- A string is any scalar, as it is written. -/
def readString (field : SettingsField) : Node → Except SettingsError Text
  | .scalar text _ _ _ => .ok text
  | node => .error (wrongType node .string (some field.name))

/-- A size is a natural number of up to 64 bits without quotes. -/
def readSize (field : SettingsField) (node : Node) : Except SettingsError Nat :=
  let number? :=
    match node with
    | .scalar text style tag _ =>
      if style = .plain || (style = .block .literal && tag = some integerTag) then natural? text
      else none
    | _ => none
  match number? with
  | some number =>
    if number < Nat.pow 2 64 then .ok number else .error (wrongType node .size (some field.name))
  | none => .error (wrongType node .size (some field.name))

def isAbsent : Node → Bool
  | .scalar text .plain none _ => text = [] || isNull text
  | .scalar text .plain (some tag) _ => tag = nullTag && isNull text
  | _ => false

def set (settings : Settings) (field : SettingsField) (node : Node) :
    Except SettingsError Settings := do
  match field with
  | .environmentType => return { settings with environmentType := ← readString field node }
  | .viewType => return { settings with viewType := ← readString field node }
  | .indentWidth => return { settings with indentWidth := ← readSize field node }
  | .fileExtension => return { settings with fileExtension := ← readString field node }
  | .outputSuffix => return { settings with outputSuffix := ← readString field node }
  | .header =>
    if isAbsent node then return { settings with header := none }
    return { settings with header := some (← readString field node) }

def setAll (place : Place) :
    List SettingsField → Settings → List (Node × Node) → Except SettingsError Settings
  | _, settings, [] => .ok settings
  | seen, settings, (key, value) :: rest =>
    match key with
    | .scalar name _ _ keyPlace =>
      match SettingsField.ofName? name with
      | none => .error (.document (.unknownField name) none keyPlace)
      | some field =>
        if field ∈ seen then .error (.document (.repeatedField field) none place)
        else do setAll place (field :: seen) (← settings.set field value) rest
    | _ => .error (wrongType key .fieldName none)

/-- The settings that a document holds, admissible or not. An empty document holds the standard
settings. -/
def ofNode : Node → Except SettingsError Settings
  | .mapping entries _ place => setAll place [] {} entries
  | .scalar [] .plain _ _ => .ok {}
  | node => .error (wrongType node .settings none)

def admissibleOfNode (node : Node) : Except SettingsError Settings := do
  let settings ← ofNode node
  match settings.fault? with
  | some fault => .error (.inadmissible fault)
  | none => return settings

/-- The settings that a text holds. Of a document that has no value no other fault is told. -/
def ofYaml (text : Text) : Except SettingsError Settings :=
  if text.isBlank then .ok {}
  else
    match Node.ofText? text with
    | none => .error .unreadable
    | some none => .ok {}
    | some (some node) =>
      match admissibleOfNode node with
      | .ok settings => .ok settings
      | .error error => .error (if node.hasValue then error else .unreadable)

end Settings

end StyleMacros
