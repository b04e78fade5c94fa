import StyleMacros.Command.Run
import StyleMacros.Report.Notice

/-!
# The program

The host made of the machine itself, and the entry point.
-/

set_option autoImplicit false

namespace StyleMacros

namespace Machine

def entry (path : Path) : IO.FS.DirEntry :=
  ⟨".", String.ofList path.text⟩

def fault : IO.Error → FileFault
  | .noFileOrDirectory _ _ _ => .notFound
  | error => .other (toString error).toList

def attempt {Result : Type} (step : IO Result) : IO (Except FileFault Result) := do
  try return .ok (← step)
  catch error => return .error (fault error)

def hasType (kind : IO.FS.FileType) (path : Path) : IO Bool := do
  try return (← (entry path).path.metadata).type == kind
  catch _ => return false

def readText (path : Path) : IO (Except FileFault Text) := do
  match ← attempt (IO.FS.readBinFile (entry path).path) with
  | .error refusal => return .error refusal
  | .ok bytes =>
    match String.fromUTF8? bytes with
    | some content => return .ok content.toList
    | none => return .error .notText

partial def filesBelow (path : Path) : IO (List Path) := do
  let mut files := []
  for found in ← (entry path).path.readDir do
    let place := path.join found.fileName.toList
    match (← (entry place).path.symlinkMetadata).type with
    | .dir => files := files ++ (← filesBelow place)
    | .file => files := files ++ [place]
    | _ => pure ()
  return files

instance : Host IO where
  isFile := hasType .file
  isDirectory := hasType .dir
  filesBelow path := attempt (filesBelow path)
  readText := readText
  writeText path content :=
    attempt (IO.FS.writeBinFile (entry path).path (String.ofList content).toUTF8)
  makeDirectories path := attempt (IO.FS.createDirAll (entry path).path)
  isTerminal := do (← IO.getStdout).isTty
  print text := do (← IO.getStdout).putStr (String.ofList text)
  complain complaint := do (← IO.getStderr).putStr (String.ofList complaint.notice)

end Machine

end StyleMacros

open StyleMacros in
def main (arguments : List String) : IO UInt32 := do
  let status ← runArguments (m := IO) (arguments.map String.toList)
  return status.code.toUInt32
