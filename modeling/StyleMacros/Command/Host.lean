import StyleMacros.Command.Line
import StyleMacros.Diagnostic
import StyleMacros.Files.Workspace

/-!
# Hosts

A host is what a command runs on: it holds the files, shows what is printed and takes the
complaints. Commands are written for any host. The host made of a workspace alone is the one to
reason about, and a command leaves in it what it has written, printed and complained about.
-/

set_option autoImplicit false

namespace StyleMacros

inductive Complaint where
  | usage (fault : UsageFault)
  | diagnostic (diagnostic : Diagnostic)
  deriving DecidableEq

class Host (m : Type → Type) where
  isFile : Path → m Bool
  isDirectory : Path → m Bool
  /-- The files at any depth below a directory, in any order. -/
  filesBelow : Path → m (Except FileFault (List Path))
  readText : Path → m (Except FileFault Text)
  writeText : Path → Text → m (Except FileFault Unit)
  /-- Makes a directory and those above it, as far as they are missing. -/
  makeDirectories : Path → m (Except FileFault Unit)
  /-- Whether the output goes to a terminal. -/
  isTerminal : m Bool
  print : Text → m Unit
  complain : Complaint → m Unit

structure HostState where
  workspace : Workspace
  printed : Text := []
  complaints : List Complaint := []

namespace HostState

def write (path : Path) (content : Text) (state : HostState) :
    Except FileFault Unit × HostState :=
  match state.workspace.write path (.text content) with
  | .ok written => (.ok (), { state with workspace := written })
  | .error fault => (.error fault, state)

def makeDirectories (path : Path) (state : HostState) : Except FileFault Unit × HostState :=
  let (made, outcome) := state.workspace.makeDirectories path
  (outcome, { state with workspace := made })

end HostState

instance : Host (StateM HostState) where
  isFile path := fun state => (state.workspace.isFile path, state)
  isDirectory path := fun state => (state.workspace.isDirectory path, state)
  filesBelow path := fun state => (state.workspace.filesBelow path, state)
  readText path := fun state => (state.workspace.readText path, state)
  writeText path content := HostState.write path content
  makeDirectories path := HostState.makeDirectories path
  isTerminal := fun state => (false, state)
  print text := fun state => ((), { state with printed := state.printed ++ text })
  complain complaint := fun state =>
    ((), { state with complaints := state.complaints ++ [complaint] })

end StyleMacros
