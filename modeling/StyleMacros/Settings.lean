import StyleMacros.Code.Layout
import StyleMacros.Expansion.Invocation
import StyleMacros.Path
import StyleMacros.Rendering.File
import StyleMacros.Targets
import StyleMacros.Text.Identifier

/-!
# Settings

What a project can set: the target types, the layout of generated code and the names of
generated files.
-/

set_option autoImplicit false

namespace StyleMacros

structure Settings where
  /-- The type that `@RegisterStyle` extends. -/
  environmentType : Text := "EnvironmentValues"
  /-- The type that `@ConvenienceModifierForStyle` extends. -/
  viewType : Text := "View"
  /-- The number of blanks for one level of indentation. -/
  indentWidth : Nat := 4
  /-- The extension of source files and of generated files. -/
  fileExtension : Text := "swift"
  /-- What a generated file has behind the stem of its source. -/
  outputSuffix : Text := "+Generated"
  /-- The first line of a generated file. -/
  header : Option Text := some "// Generated by stylegen. Do not edit."
  deriving DecidableEq

/-! ## Admissible settings -/

inductive SettingsFault where
  | noIndent
  | notATypeName (field : Text) (value : Text)
  | fileExtension
  | noSuffix
  deriving DecidableEq

def SettingsFault.message : SettingsFault → Text
  | .noIndent => "indent_width must be at least 1"
  | .notATypeName field value => field ++ " must be a type name, found `" ++ value ++ "`"
  | .fileExtension => "file_extension must be non-empty and given without the leading dot"
  | .noSuffix =>
    "output_suffix must be non-empty, or generated files would overwrite their sources"

namespace Settings

def fault? (settings : Settings) : Option SettingsFault :=
  if settings.indentWidth = 0 then some .noIndent
  else if !settings.environmentType.isIdentifier then
    some (.notATypeName "environment_type" settings.environmentType)
  else if !settings.viewType.isIdentifier then
    some (.notATypeName "view_type" settings.viewType)
  else if settings.fileExtension = [] || settings.fileExtension.head? = some '.' then
    some .fileExtension
  else if settings.outputSuffix = [] then some .noSuffix
  else none

/-! ## What the settings mean -/

def targets (settings : Settings) : Targets :=
  ⟨settings.environmentType, settings.viewType⟩

def expansion (settings : Settings) : ExpansionSettings :=
  ⟨settings.targets, indentUnit settings.indentWidth⟩

def rendering (settings : Settings) : RenderOptions :=
  ⟨indentUnit settings.indentWidth, settings.header⟩

def outputName (settings : Settings) (stem : Text) : Text :=
  stem ++ settings.outputSuffix ++ '.' :: settings.fileExtension

/-- Where the file generated from a source goes: into the output directory, or next to the
source if there is none. -/
def outputPath (settings : Settings) (source : Path) (outDir : Option Path) : Path :=
  let name := settings.outputName (source.fileStem?.getD [])
  match outDir with
  | some dir => dir.join name
  | none => source.withFileName name

def isGenerated (settings : Settings) (path : Path) : Bool :=
  match path.fileStem? with
  | some stem => stem.endsWith settings.outputSuffix
  | none => false

end Settings

end StyleMacros
