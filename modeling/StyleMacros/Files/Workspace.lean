import StyleMacros.Files.Tree
import StyleMacros.Path

/-!
# Workspaces

A workspace is a file tree seen from a working directory. A path is followed from there, or
from the root if it is absolute, piece by piece: an empty piece and a dot stay where they are
and two dots go up, all three only in a directory. So a file followed by a slash is nothing.
-/

set_option autoImplicit false

namespace StyleMacros

structure Workspace where
  tree : FileTree
  current : Location

namespace FileTree

/-- Where a step through a piece of a path leads from a directory, and whether the piece is
the name of something in it. -/
def stepTo (location : Location) (piece : Text) : Location × Bool :=
  if Path.isVoid piece then (location, false)
  else if piece = ['.', '.'] then (location.dropLast, false)
  else (location ++ [piece], true)

def checkDirectory (tree : FileTree) (location : Location) : Except FileFault Unit :=
  match tree.node? location with
  | some .directory => .ok ()
  | some (.file _) => .error .notADirectory
  | none => .error .notFound

def follow (tree : FileTree) (location : Location) : List Text → Except FileFault Location
  | [] => .ok location
  | piece :: rest => do
    tree.checkDirectory location
    let (next, _) := stepTo location piece
    if (tree.node? next).isNone then throw .notFound
    tree.follow next rest

/-- Makes the directories that are missing along the pieces of a path. Those that were made
before a fault stay. -/
def makeAlong (tree : FileTree) (location : Location) :
    List Text → FileTree × Except FileFault Unit
  | [] => (tree, tree.checkDirectory location)
  | piece :: rest =>
    match tree.checkDirectory location with
    | .error fault => (tree, .error fault)
    | .ok () =>
      match stepTo location piece with
      | (next, false) => tree.makeAlong next rest
      | (next, true) =>
        match tree.makeDirectory location piece with
        | .ok made => made.makeAlong next rest
        | .error fault => (tree, .error fault)

end FileTree

namespace Workspace

def start (workspace : Workspace) (path : Path) : Location × List Text :=
  (if path.isAbsolute then [] else workspace.current, Text.splitOn '/' path.text)

def locate (workspace : Workspace) (path : Path) : Except FileFault Location :=
  if path.text = [] then .error .notFound
  else
    let (location, pieces) := workspace.start path
    workspace.tree.follow location pieces

def node? (workspace : Workspace) (path : Path) : Option FileNode :=
  match workspace.locate path with
  | .ok location => workspace.tree.node? location
  | .error _ => none

def isFile (workspace : Workspace) (path : Path) : Bool :=
  match workspace.node? path with
  | some (.file _) => true
  | _ => false

def isDirectory (workspace : Workspace) (path : Path) : Bool :=
  workspace.node? path = some .directory

/-- The files below a directory, each by the directory's path with the names on the way. -/
def filesBelow (workspace : Workspace) (path : Path) : Except FileFault (List Path) :=
  (workspace.locate path).map fun location =>
    (workspace.tree.filesBelow location).map (List.foldl Path.join path)

def readText (workspace : Workspace) (path : Path) : Except FileFault Text := do
  let location ← workspace.locate path
  match workspace.tree.node? location with
  | some (.file (.text content)) => .ok content
  | some (.file (.bytes _)) => .error .notText
  | some .directory => .error .isADirectory
  | none => .error .notFound

def locateNew (workspace : Workspace) (path : Path) : Except FileFault (Location × Text) := do
  let (location, pieces) := workspace.start path
  let name := pieces.getLastD []
  let holder ← workspace.tree.follow location pieces.dropLast
  workspace.tree.checkDirectory holder
  if (FileTree.stepTo holder name).2 then .ok (holder, name) else throw .isADirectory

def write (workspace : Workspace) (path : Path) (content : FileContent) :
    Except FileFault Workspace := do
  let (location, name) ← workspace.locateNew path
  let written ← workspace.tree.write location name content
  .ok { workspace with tree := written }

def makeDirectories (workspace : Workspace) (path : Path) :
    Workspace × Except FileFault Unit :=
  let (location, pieces) := workspace.start path
  let (made, outcome) := workspace.tree.makeAlong location pieces
  ({ workspace with tree := made }, outcome)

def removeFile (workspace : Workspace) (path : Path) : Option Workspace := do
  let location ← (workspace.locate path).toOption
  let remaining ← workspace.tree.removeFile location
  return { workspace with tree := remaining }

end Workspace

end StyleMacros
