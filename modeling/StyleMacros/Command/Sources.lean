import StyleMacros.Command.Action
import StyleMacros.Settings

/-!
# Finding sources

The roots name files and directories. A file is taken as it is. A directory stands for the
files below it that have the extension of sources and are not generated. The sources come in
the order of their paths, and of several spellings with the same components the first is kept.
-/

set_option autoImplicit false

namespace StyleMacros

def Settings.isSource (settings : Settings) (path : Path) : Bool :=
  path.extension? = some settings.fileExtension && !settings.isGenerated path

namespace Path

/-- Leaves out each path that is the same as the one before it. -/
def dropRepeats : List Path → List Path
  | first :: second :: rest =>
    if first.same second then dropRepeats (first :: rest)
    else first :: dropRepeats (second :: rest)
  | short => short
termination_by paths => paths.length

def sorted (paths : List Path) : List Path :=
  dropRepeats (paths.mergeSort fun left right => !right.lt left)

end Path

variable {m : Type → Type} [Monad m] [Host m]

def sourcesAt (settings : Settings) (root : Path) : Action m (List Path) := do
  if ← Host.isFile root then return [root]
  if !(← Host.isDirectory root) then throw (FileFault.notFound.diagnostic root)
  let files ← Action.atPath root (Host.filesBelow root)
  return files.filter settings.isSource

def sourcesUnder (settings : Settings) : List Path → Action m (List Path)
  | [] => pure []
  | root :: rest => do
    let here ← sourcesAt settings root
    let behind ← sourcesUnder settings rest
    return here ++ behind

def findSources (settings : Settings) (roots : List Path) : Action m (List Path) := do
  return Path.sorted (← sourcesUnder settings roots)

end StyleMacros
