import StyleMacros.Command.Host

/-!
# Actions

An action is a step of a command. A diagnostic ends it, and with it the command.
-/

set_option autoImplicit false

namespace StyleMacros

abbrev Action (m : Type → Type) (Result : Type) :=
  ExceptT Diagnostic m Result

instance {m : Type → Type} [Monad m] [Host m] : Host (ExceptT Diagnostic m) where
  isFile path := ExceptT.lift (Host.isFile path)
  isDirectory path := ExceptT.lift (Host.isDirectory path)
  filesBelow path := ExceptT.lift (Host.filesBelow path)
  readText path := ExceptT.lift (Host.readText path)
  writeText path content := ExceptT.lift (Host.writeText path content)
  makeDirectories path := ExceptT.lift (Host.makeDirectories path)
  isTerminal := ExceptT.lift Host.isTerminal
  print text := ExceptT.lift (Host.print text)
  complain complaint := ExceptT.lift (Host.complain complaint)

def FileFault.diagnostic (fault : FileFault) (path : Path) : Diagnostic :=
  .io path.text fault.message

namespace Action

variable {m : Type → Type} [Monad m] {Item Result : Type}

def atPath (path : Path) (step : m (Except FileFault Result)) : Action m Result :=
  ExceptT.mk do return (← step).mapError (FileFault.diagnostic · path)

def ofExcept {Fault : Type} (diagnostic : Fault → Diagnostic) (result : Except Fault Result) :
    Action m Result :=
  ExceptT.mk (pure (result.mapError diagnostic))

/-- Whether a step went well for every item. A step that does not go well is no reason to leave
out those behind it. -/
def allWell (step : Item → Action m Bool) : List Item → Action m Bool
  | [] => pure true
  | item :: rest => do
    let here ← step item
    let behind ← allWell step rest
    return here && behind

end Action

def complainAll {m : Type → Type} [Monad m] [Host m] : List Diagnostic → m Unit
  | [] => pure ()
  | diagnostic :: rest => do
    Host.complain (.diagnostic diagnostic)
    complainAll rest

end StyleMacros
