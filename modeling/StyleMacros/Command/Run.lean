import StyleMacros.Command.Sources
import StyleMacros.Plan
import StyleMacros.Report.Encoding
import StyleMacros.Report.Listing
import StyleMacros.Settings.Document

/-!
# Commands

Each command answers whether all went well. What is wrong with a site is complained about and
does not keep the command from going on; what is wrong with the settings, the roots or a file
ends it.
-/

set_option autoImplicit false

namespace StyleMacros

inductive ExitStatus where
  | success | failure | misuse
  deriving DecidableEq

def ExitStatus.code : ExitStatus → Nat
  | .success => 0
  | .failure => 1
  | .misuse => 2

variable {m : Type → Type} [Monad m] [Host m]

/-! ## Reading files -/

/-- The settings file that is used, if it is there, where none is named. -/
def defaultSettingsFile : Path :=
  ⟨"stylegen.yaml"⟩

def readSettings (path : Path) : Action m Settings := do
  let content ← Action.atPath path (Host.readText path)
  Action.ofExcept SettingsError.diagnostic (Settings.ofYaml content)

/-- The settings of a named file, of the usual file if it is there, or the standard ones. -/
def loadSettings : Option Path → Action m Settings
  | some path => readSettings path
  | none => do
    if ← Host.isFile defaultSettingsFile then readSettings defaultSettingsFile else return {}

def readSource (path : Path) : Action m SourceText := do
  return ⟨path.text, ← Action.atPath path (Host.readText path)⟩

/-! ## Showing one file -/

def expandFile (settings : Settings) (coloured : Bool) (path : Path) (json : Bool) :
    Action m Bool := do
  let source ← readSource path
  let expansion := FileExpansion.ofSource source settings.expansion
  Host.print (if json then Text.asLine expansion.json.text else expansion.listing coloured)
  complainAll expansion.errors
  return !expansion.hasErrors

def showSites (path : Path) : Action m Bool := do
  let source ← readSource path
  let outcomes := (readSites source.content).map fun site =>
    site.annotated.mapError fun fault => SiteFault.diagnostic fault source "lower"
  let faults := outcomes.filterMap fun outcome =>
    match outcome with
    | .ok _ => none
    | .error diagnostic => some diagnostic
  let entries := outcomes.map fun outcome =>
    match outcome with
    | .ok annotated => annotated.json
    | .error diagnostic => diagnostic.siteJson
  complainAll faults
  Host.print (Text.asLine (JsonValue.array entries).text)
  return faults.isEmpty

/-! ## Generated files -/

/-- What the generated file of a source has to hold, if the source has sites and all of them
can be expanded, and whether nothing was wrong with them. -/
def renderSource (settings : Settings) (path : Path) : Action m (Option Text × Bool) := do
  let source ← readSource path
  let expansion := FileExpansion.ofSource source settings.expansion
  if expansion.isEmpty then return (none, true)
  complainAll expansion.errors
  return (expansion.render source.content settings.rendering, !expansion.hasErrors)

def writeOutput (path : Path) (content : Text) : Action m Unit := do
  let directory := path.parent
  if directory.text ≠ [] then Action.atPath directory (Host.makeDirectories directory)
  Action.atPath path (Host.writeText path content)

def generateOne (settings : Settings) (coloured : Bool) (planned : PlannedOutput) :
    Action m Bool := do
  let (rendered, well) ← renderSource settings planned.source
  if let some content := rendered then
    writeOutput planned.output content
    Host.print (OutputState.generated.listing coloured planned.output)
  return well

def checkOutput (coloured : Bool) (path : Path) (content : Text) : Action m Bool := do
  match ← Host.readText path with
  | .ok present =>
    if present = content then
      Host.print (OutputState.fresh.listing coloured path)
      return true
    Host.print (OutputState.stale.listing coloured path ++
      LineDiff.listing coloured present content)
    return false
  | .error .notFound =>
    Host.print (OutputState.missing.listing coloured path)
    return false
  | .error fault => throw (fault.diagnostic path)

def checkOne (settings : Settings) (coloured : Bool) (planned : PlannedOutput) :
    Action m Bool := do
  let (rendered, well) ← renderSource settings planned.source
  match rendered with
  | none => return well
  | some content =>
    let same ← checkOutput coloured planned.output content
    return well && same

def planUnder (settings : Settings) (roots : List Path) (outDir : Option Path) :
    Action m (List PlannedOutput) := do
  let sources ← findSources settings roots
  Action.ofExcept OutputClash.diagnostic (planOutputs settings outDir sources)

def generateFiles (settings : Settings) (coloured : Bool) (roots : List Path)
    (outDir : Option Path) : Action m Bool := do
  Action.allWell (generateOne settings coloured) (← planUnder settings roots outDir)

def checkFiles (settings : Settings) (coloured : Bool) (roots : List Path)
    (outDir : Option Path) : Action m Bool := do
  Action.allWell (checkOne settings coloured) (← planUnder settings roots outDir)

/-! ## Calls -/

def listCatalog (settings : Settings) (coloured : Bool) : Action m Bool := do
  Host.print ((catalog settings.targets).flatMap (CatalogEntry.listing coloured))
  return true

def Command.perform (settings : Settings) (coloured : Bool) : Command → Action m Bool
  | .expand file json => expandFile settings coloured file json
  | .generate roots outDir => generateFiles settings coloured roots outDir
  | .check roots outDir => checkFiles settings coloured roots outDir
  | .ast file => showSites file
  | .listMacros => listCatalog settings coloured

def ColourMode.applies : ColourMode → m Bool
  | .always => pure true
  | .never => pure false
  | .auto => Host.isTerminal

def Command.run (options : CallOptions) (command : Command) : Action m Bool := do
  let coloured ← options.colours.applies
  let settings ← loadSettings options.settingsFile
  command.perform settings coloured

def versionLine : Text :=
  Text.asLine "stylegen 0.1.0"

def helpText : Text :=
  Text.asLine "Usage: stylegen [OPTIONS] <COMMAND>" ++
  Text.asLine [] ++
  Text.asLine "Commands:" ++
  Text.asLine "  expand <FILE> [--json]               Print what is generated for a file" ++
  Text.asLine "  generate <PATHS>... [--out-dir DIR]  Write the generated files" ++
  Text.asLine "  check <PATHS>... [--out-dir DIR]     Compare the generated files" ++
  Text.asLine "  ast <FILE>                           Show what is read in a file as JSON" ++
  Text.asLine "  list-macros                          List the attributes" ++
  Text.asLine [] ++
  Text.asLine "Options:" ++
  Text.asLine "  --config FILE                The settings, usually ./stylegen.yaml" ++
  Text.asLine "  -v, --verbose                More remarks" ++
  Text.asLine "  --color auto|always|never    When to use colours" ++
  Text.asLine "  -V, --version                Print the version" ++
  Text.asLine "  -h, --help                   Print this help"

def runArguments (arguments : List Text) : m ExitStatus := do
  match Request.ofArguments arguments with
  | .error fault =>
    Host.complain (.usage fault)
    return .misuse
  | .ok .version =>
    Host.print versionLine
    return .success
  | .ok .help =>
    Host.print helpText
    return .success
  | .ok (.run options command) =>
    match ← (command.run options).run with
    | .ok true => return .success
    | .ok false => return .failure
    | .error diagnostic =>
      Host.complain (.diagnostic diagnostic)
      return .failure

end StyleMacros
