import StyleMacros.Path

/-!
# Command lines

The arguments of a call are options and operands. The first operand names the command; options
before it belong to the call, options behind it to the command. Some options are admitted in
both places, and the one behind wins. A long option has its value behind an equals sign or in
the next argument, short options can share a dash, and behind two dashes alone everything is an
operand.

Arguments are judged from left to right: the first that is wrong, or that asks for the version
or for help, decides.
-/

set_option autoImplicit false

namespace StyleMacros

/-! ## Names -/

inductive CommandName where
  | expand | generate | check | ast | listMacros
  deriving DecidableEq

namespace CommandName

def text : CommandName → Text
  | .expand => "expand"
  | .generate => "generate"
  | .check => "check"
  | .ast => "ast"
  | .listMacros => "list-macros"

def all : List CommandName :=
  [.expand, .generate, .check, .ast, .listMacros]

def ofText? (word : Text) : Option CommandName :=
  all.find? (fun name => name.text = word)

def operand? : CommandName → Option Text
  | .expand | .ast => some "FILE"
  | .generate | .check => some "PATHS"
  | .listMacros => none

def takesOperand (count : Nat) : CommandName → Bool
  | .expand | .ast => count = 0
  | .generate | .check => true
  | .listMacros => false

end CommandName

inductive OptionName where
  | config | verbose | color | json | outDir | version | help
  deriving DecidableEq

namespace OptionName

def long : OptionName → Text
  | .config => "config"
  | .verbose => "verbose"
  | .color => "color"
  | .json => "json"
  | .outDir => "out-dir"
  | .version => "version"
  | .help => "help"

def short? : OptionName → Option Char
  | .verbose => some 'v'
  | .version => some 'V'
  | .help => some 'h'
  | _ => none

def takesValue : OptionName → Bool
  | .config | .color | .outDir => true
  | _ => false

def admitted : Option CommandName → List OptionName
  | none => [.config, .verbose, .color, .version, .help]
  | some .expand => [.config, .verbose, .color, .json, .help]
  | some .generate | some .check => [.config, .verbose, .color, .outDir, .help]
  | some .ast | some .listMacros => [.config, .verbose, .color, .help]

end OptionName

/-! ## Requests -/

inductive ColourMode where
  /-- Colours on a terminal only. -/
  | auto
  | always
  | never
  deriving DecidableEq

def ColourMode.ofText? (word : Text) : Option ColourMode :=
  if word = "auto".toList then some .auto
  else if word = "always".toList then some .always
  else if word = "never".toList then some .never
  else none

structure CallOptions where
  settingsFile : Option Path := none
  /-- How often more remarks have been asked for. -/
  verbosity : Nat := 0
  colours : ColourMode := .auto
  deriving DecidableEq

inductive Command where
  /-- Show what the sites of a file expand to. -/
  | expand (file : Path) (json : Bool)
  /-- Write the generated files. -/
  | generate (paths : List Path) (outDir : Option Path)
  /-- Compare the generated files with what would be written. -/
  | check (paths : List Path) (outDir : Option Path)
  /-- Show what is read at the sites of a file. -/
  | ast (file : Path)
  /-- Show the catalog. -/
  | listMacros
  deriving DecidableEq

inductive Request where
  | run (options : CallOptions) (command : Command)
  | version
  | help
  deriving DecidableEq

inductive UsageFault where
  | missingCommand
  | unknownCommand (word : Text)
  | unknownOption (argument : Text)
  | missingValue (option : OptionName)
  | unexpectedValue (option : OptionName)
  | invalidValue (option : OptionName) (value : Text)
  | repeatedOption (option : OptionName)
  | missingOperand (operand : Text)
  | emptyOperand
  | unexpectedOperand (argument : Text)
  deriving DecidableEq

def UsageFault.message : UsageFault → Text
  | .missingCommand => "a command is required"
  | .unknownCommand word => "there is no command '" ++ word ++ "'"
  | .unknownOption argument => "unexpected argument '" ++ argument ++ "'"
  | .missingValue option => "'--" ++ option.long ++ "' requires a value"
  | .unexpectedValue option => "'--" ++ option.long ++ "' takes no value"
  | .invalidValue option value => "invalid value '" ++ value ++ "' for '--" ++ option.long ++ "'"
  | .repeatedOption option => "'--" ++ option.long ++ "' cannot be used more than once"
  | .missingOperand operand => "the argument <" ++ operand ++ "> is required"
  | .emptyOperand => "an argument must not be empty"
  | .unexpectedOperand argument => "unexpected argument '" ++ argument ++ "'"

/-! ## Reading arguments -/

inductive Interruption where
  | fault (fault : UsageFault)
  | version
  | help
  deriving DecidableEq

inductive ArgumentForm where
  /-- Two dashes alone. -/
  | escape
  | long (name : Text) (value : Option Text)
  | short (letters : Text)
  | operand
  deriving DecidableEq

def ArgumentForm.of (argument : Text) : ArgumentForm :=
  match argument with
  | ['-', '-'] => .escape
  | '-' :: '-' :: body =>
    match Text.splitOn '=' body with
    | [] => .long body none
    | [name] => .long name none
    | name :: pieces => .long name (some (Text.join ['='] pieces))
  | ['-'] => .operand
  | '-' :: letters => .short letters
  | _ => .operand

structure Given where
  options : List (OptionName × Text) := []
  operands : List Text := []

namespace Given

def value? (given : Given) (option : OptionName) : Option Text :=
  given.options.lookup option

def has (given : Given) (option : OptionName) : Bool :=
  (given.value? option).isSome

def count (given : Given) (option : OptionName) : Nat :=
  (given.options.filter fun entry => entry.1 = option).length

/-- Takes up an option. Only the option for more remarks can be repeated. -/
def addOption (given : Given) (option : OptionName) (value : Text) :
    Except Interruption Given := do
  if option = .version then throw .version
  if option = .help then throw .help
  if option.takesValue && value = [] then throw (.fault (.missingValue option))
  if option = .color && (ColourMode.ofText? value).isNone then
    throw (.fault (.invalidValue option value))
  if option ≠ .verbose && given.has option then throw (.fault (.repeatedOption option))
  return { given with options := given.options ++ [(option, value)] }

def addLetter (level : Option CommandName) (given : Given) (letter : Char) :
    Except Interruption Given :=
  match (OptionName.admitted level).find? (fun option => option.short? = some letter) with
  | some option => given.addOption option []
  | none => .error (.fault (.unknownOption ['-', letter]))

def addOperand (command : CommandName) (given : Given) (operand : Text) :
    Except Interruption Given := do
  if !command.takesOperand given.operands.length then
    throw (.fault (.unexpectedOperand operand))
  if operand = [] then throw (.fault .emptyOperand)
  return { given with operands := given.operands ++ [operand] }

def read (level : Option CommandName) (given : Given) :
    List Text → Except Interruption (Given × List Text)
  | [] => .ok (given, [])
  | argument :: rest =>
    match ArgumentForm.of argument with
    | .escape =>
      match level with
      | none => .error (.fault ((rest.head?.map .unexpectedOperand).getD .missingCommand))
      | some command => do return (← rest.foldlM (addOperand command) given, [])
    | .operand =>
      match level with
      | none => .ok (given, argument :: rest)
      | some command => given.addOperand command argument >>= fun given => read level given rest
    | .short letters =>
      letters.foldlM (addLetter level) given >>= fun given => read level given rest
    | .long name attached =>
      match (OptionName.admitted level).find? (fun option => option.long = name) with
      | none => .error (.fault (.unknownOption argument))
      | some option =>
        match attached with
        | some value =>
          if option.takesValue then
            given.addOption option value >>= fun given => read level given rest
          else .error (.fault (.unexpectedValue option))
        | none =>
          if option.takesValue then
            match rest with
            | [] => .error (.fault (.missingValue option))
            | value :: later =>
              if ArgumentForm.of value = .operand then
                given.addOption option value >>= fun given => read level given later
              else .error (.fault (.missingValue option))
          else given.addOption option [] >>= fun given => read level given rest

end Given

/-! ## Understanding them -/

/-- The options of a call. What stands behind the command wins. -/
def CallOptions.ofGiven (before behind : Given) : CallOptions where
  settingsFile := (behind.value? .config <|> before.value? .config).map Path.mk
  verbosity :=
    if behind.has .verbose then behind.count .verbose else before.count .verbose
  colours :=
    ((behind.value? .color <|> before.value? .color).bind ColourMode.ofText?).getD .auto

def Command.ofGiven (name : CommandName) (given : Given) : Except UsageFault Command :=
  let paths := given.operands.map Path.mk
  let outDir := (given.value? .outDir).map Path.mk
  match name, paths with
  | .expand, file :: _ => .ok (.expand file (given.has .json))
  | .generate, _ :: _ => .ok (.generate paths outDir)
  | .check, _ :: _ => .ok (.check paths outDir)
  | .ast, file :: _ => .ok (.ast file)
  | .listMacros, _ => .ok .listMacros
  | _, [] => .error (.missingOperand (name.operand?.getD []))

def helpWord : Text := "help"

def Request.ofCommand (before : Given) : List Text → Except Interruption Request
  | [] => .error (.fault .missingCommand)
  | word :: rest =>
    if word = helpWord then
      match rest with
      | [] => .error .help
      | [topic] =>
        if topic = helpWord || (CommandName.ofText? topic).isSome then .error .help
        else .error (.fault (.unknownCommand topic))
      | _ :: topic :: _ => .error (.fault (.unknownCommand topic))
    else
      match CommandName.ofText? word with
      | none => .error (.fault (.unknownCommand word))
      | some name => do
        let (behind, _) ← Given.read (some name) {} rest
        let command ← (Command.ofGiven name behind).mapError Interruption.fault
        return .run (.ofGiven before behind) command

def Request.ofArguments (arguments : List Text) : Except UsageFault Request :=
  let outcome := do
    let (before, rest) ← Given.read none {} arguments
    Request.ofCommand before rest
  match outcome with
  | .ok request => .ok request
  | .error .version => .ok .version
  | .error .help => .ok .help
  | .error (.fault fault) => .error fault

end StyleMacros
