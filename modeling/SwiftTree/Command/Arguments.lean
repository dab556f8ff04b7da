import SwiftTree.Command.Basic

/-!
# Command line arguments

The arguments are read from left to right. Options of the tool come before the name of a command,
options of the command after it, and operands may stand between these; after `--` everything is an
operand. The value of an option is attached to it or is the next argument, which may not look like
an option then. The first argument that cannot be read ends the reading, and so does a question for
the version or for help. What is missing is found out at the end.
-/

namespace SwiftTree

inductive CommandOption
  | settings
  | verbose
  | help
  | version
  | format
  | declarations
  | path
  | declaration
  | text
  | before
  | script
  | write
  | diff
  deriving DecidableEq, Repr

inductive OptionValue
  | nothing
  | text
  /-- A path is never empty. -/
  | path
  | format
  deriving DecidableEq, Repr

namespace CommandOption

def long : CommandOption → String
  | settings => "config"
  | verbose => "verbose"
  | help => "help"
  | version => "version"
  | format => "format"
  | declarations => "declarations"
  | path => "path"
  | declaration => "decl"
  | text => "text"
  | before => "before"
  | script => "script"
  | write => "write"
  | diff => "diff"

def short? : CommandOption → Option Char
  | verbose => some 'v'
  | help => some 'h'
  | version => some 'V'
  | format => some 'f'
  | script => some 's'
  | write => some 'w'
  | diff => some 'd'
  | _ => none

def value : CommandOption → OptionValue
  | settings => .path
  | script => .path
  | format => .format
  | path => .text
  | declaration => .text
  | text => .text
  | _ => .nothing

end CommandOption

inductive UsageError
  | noCommand
  | unknownCommand (name : String)
  | unknownOption (name : String)
  | missingValue (option : CommandOption)
  | unexpectedValue (option : CommandOption)
  | invalidValue (option : CommandOption) (value : String)
  | repeated (option : CommandOption)
  | emptyOperand
  | unexpectedOperand (operand : String)
  | missingOperand
  | missingOption (option : CommandOption)
  /-- A node is addressed by exactly one path. -/
  | target
  deriving DecidableEq, Repr

namespace UsageError

def message : UsageError → String
  | noCommand => "a command is required"
  | unknownCommand name => "unrecognized command '" ++ name ++ "'"
  | unknownOption name => "unexpected argument '" ++ name ++ "'"
  | missingValue option => "a value is required for '--" ++ option.long ++ "'"
  | unexpectedValue option => "no value is expected for '--" ++ option.long ++ "'"
  | invalidValue option value => "invalid value '" ++ value ++ "' for '--" ++ option.long ++ "'"
  | repeated option => "'--" ++ option.long ++ "' cannot be used multiple times"
  | emptyOperand => "a path cannot be empty"
  | unexpectedOperand operand => "unexpected argument '" ++ operand ++ "'"
  | missingOperand => "a path is required"
  | missingOption option => "'--" ++ option.long ++ "' is required"
  | target => "exactly one of '--path' and '--decl' is required"

end UsageError

/-- What ends the reading of a command line early. -/
inductive Interruption
  | help
  | version
  | misuse (error : UsageError)
  deriving DecidableEq, Repr

/-- The options and operands that have been read. An option that takes nothing has an empty
value. -/
structure Arguments where
  options : List (CommandOption × String) := []
  operands : List String := []
  deriving DecidableEq, Repr

namespace Arguments

def has (given : Arguments) (option : CommandOption) : Bool :=
  (given.options.lookup option).isSome

def value? (given : Arguments) (option : CommandOption) : Option String :=
  given.options.lookup option

def add (given : Arguments) (option : CommandOption) (value : String) :
    Except Interruption Arguments :=
  let accepted : Bool :=
    match option.value with
    | .path => !value.isEmpty
    | .format => (OutputFormat.ofName value).isOk
    | _ => true
  if option = .help then .error .help
  else if option = .version then .error .version
  else if given.has option then .error (.misuse (.repeated option))
  else if accepted then .ok { given with options := given.options ++ [(option, value)] }
  else .error (.misuse (.invalidValue option value))

/-- Adds an operand, of which there may be a limited number. -/
def addOperand (limit : Option Nat) (given : Arguments) (operand : String) :
    Except Interruption Arguments :=
  if (limit.map fun limit => decide (limit ≤ given.operands.length)).getD false then
    .error (.misuse (.unexpectedOperand operand))
  else if operand.isEmpty then .error (.misuse .emptyOperand)
  else .ok { given with operands := given.operands ++ [operand] }

end Arguments

inductive Word
  /-- Two hyphens, after which there are no options. -/
  | separator
  | long (name : String) (value : Option String)
  /-- A hyphen with options of one letter each. -/
  | letters (letters : List Char)
  | plain
  deriving DecidableEq, Repr

namespace Word

def ofString (argument : String) : Word :=
  match argument.toList with
  | ['-', '-'] => separator
  | '-' :: '-' :: cs =>
    let name := String.ofList (cs.takeWhile (· != '='))
    match cs.dropWhile (· != '=') with
    | _ :: value => long name (some (String.ofList value))
    | [] => long name none
  | '-' :: c :: cs => letters (c :: cs)
  | _ => plain

end Word

namespace Arguments

/-- Reads an option in its long form. The result says which option still waits for its value. -/
def readLong (allowed : List CommandOption) (given : Arguments) (name : String)
    (value : Option String) : Except Interruption (Arguments × Option CommandOption) :=
  match allowed.find? fun option => option.long == name with
  | none => .error (.misuse (.unknownOption ("--" ++ name)))
  | some option =>
    match option.value, value with
    | .nothing, none => (given.add option "").map fun given => (given, none)
    | .nothing, some _ => .error (.misuse (.unexpectedValue option))
    | _, some value => (given.add option value).map fun given => (given, none)
    | _, none => .ok (given, some option)

/-- Reads options of one letter each. What follows the letter of an option that takes a value is
that value, after an equals sign if there is one. -/
def readLetters (allowed : List CommandOption) (given : Arguments) :
    List Char → Except Interruption (Arguments × Option CommandOption)
  | [] => .ok (given, none)
  | c :: cs =>
    match allowed.find? fun option => option.short? == some c with
    | none => .error (.misuse (.unknownOption (String.ofList ['-', c])))
    | some option =>
      if option.value = .nothing then do
        let given ← given.add option ""
        readLetters allowed given cs
      else
        match cs with
        | [] => .ok (given, some option)
        | '=' :: value => (given.add option (String.ofList value)).map fun given => (given, none)
        | value => (given.add option (String.ofList value)).map fun given => (given, none)

/-- Reads the arguments of a command, of which one option may still wait for its value. -/
def read (allowed : List CommandOption) (limit : Option Nat) :
    Arguments → Option CommandOption → List String → Except Interruption Arguments
  | given, none, [] => .ok given
  | _, some option, [] => .error (.misuse (.missingValue option))
  | given, some option, argument :: rest =>
    match Word.ofString argument with
    | .plain => do read allowed limit (← given.add option argument) none rest
    | _ => .error (.misuse (.missingValue option))
  | given, none, argument :: rest =>
    match Word.ofString argument with
    | .plain => do read allowed limit (← given.addOperand limit argument) none rest
    | .separator => rest.foldlM (addOperand limit) given
    | .long name value => do
      let (given, waiting) ← given.readLong allowed name value
      read allowed limit given waiting rest
    | .letters letters => do
      let (given, waiting) ← given.readLetters allowed letters
      read allowed limit given waiting rest

/-- Reads the options in front of the name of a command. The rest begins with that name. -/
def readLeading (allowed : List CommandOption) :
    Arguments → Option CommandOption → List String →
      Except Interruption (Arguments × String × List String)
  | _, none, [] => .error (.misuse .noCommand)
  | _, some option, [] => .error (.misuse (.missingValue option))
  | given, some option, argument :: rest =>
    match Word.ofString argument with
    | .plain => do readLeading allowed (← given.add option argument) none rest
    | _ => .error (.misuse (.missingValue option))
  | given, none, argument :: rest =>
    match Word.ofString argument with
    | .plain => .ok (given, argument, rest)
    | .separator => .error (.misuse .noCommand)
    | .long name value => do
      let (given, waiting) ← given.readLong allowed name value
      readLeading allowed given waiting rest
    | .letters letters => do
      let (given, waiting) ← given.readLetters allowed letters
      readLeading allowed given waiting rest

def file (given : Arguments) : Except UsageError String :=
  match given.operands with
  | file :: _ => .ok file
  | [] => .error .missingOperand

def required (given : Arguments) (option : CommandOption) : Except UsageError String :=
  match given.value? option with
  | some value => .ok value
  | none => .error (.missingOption option)

def target (given : Arguments) : Except UsageError (Scheme × String) :=
  match given.value? .path, given.value? .declaration with
  | some path, none => .ok (.token, path)
  | none, some path => .ok (.declaration, path)
  | _, _ => .error .target

def delivery (given : Arguments) : Delivery :=
  { write := given.has .write, diff := given.has .diff }

def format (given : Arguments) : Option OutputFormat :=
  (given.value? .format).bind fun name => (OutputFormat.ofName name).toOption

/-- A command that changes one node. -/
def edit (given : Arguments) (operation : Except UsageError Operation) :
    Except UsageError Command := do
  let file ← given.file
  let (scheme, path) ← given.target
  return .edit file scheme path (← operation) given.delivery

end Arguments

/-- The name of a command, the arguments it takes, and what they mean. -/
structure CommandForm where
  name : String
  options : List CommandOption
  /-- How many operands there may be at most. -/
  limit : Option Nat
  command : Arguments → Except UsageError Command

namespace CommandForm

/-- The options that every command takes. -/
def common : List CommandOption :=
  [.settings, .verbose, .help]

/-- The options of a command that changes one node. -/
def editing : List CommandOption :=
  [.path, .declaration, .write, .diff]

def all : List CommandForm :=
  [{ name := "diagnose"
     options := [.format]
     limit := none
     command := fun given =>
      if given.operands.isEmpty then .error .missingOperand
      else .ok (.diagnose given.operands given.format) },
   { name := "paths"
     options := [.declarations]
     limit := some 1
     command := fun given => do
      return .paths (← given.file) (if given.has .declarations then .declaration else .token) },
   { name := "replace"
     options := .text :: editing
     limit := some 1
     command := fun given => given.edit ((given.required .text).map .replace) },
   { name := "delete"
     options := editing
     limit := some 1
     command := fun given => given.edit (.ok .delete) },
   { name := "insert"
     options := .text :: .before :: editing
     limit := some 1
     command := fun given => given.edit ((given.required .text).map fun text =>
      .insert text (if given.has .before then .before else .after)) },
   { name := "doc"
     options := .text :: editing
     limit := some 1
     command := fun given => given.edit (.ok (.document (given.value? .text))) },
   { name := "apply"
     options := [.script, .write, .diff]
     limit := some 1
     command := fun given => do
      return .apply (← given.file) (← given.required .script) given.delivery }]

def find? (name : String) : Option CommandForm :=
  all.find? fun form => form.name == name

end CommandForm

namespace Invocation

/-- What ends the reading after a question for help on a command. -/
def helpOn : List String → Interruption
  | [] => .help
  | [name] =>
    if name = "help" ∨ (CommandForm.find? name).isSome then .help
    else .misuse (.unknownCommand name)
  | _ :: name :: _ => .misuse (.unknownCommand name)

/-- Reads a command line. Settings that are given after the name of the command take the place of
those in front of it. -/
def ofArguments (arguments : List String) : Except Interruption Invocation := do
  let (leading, name, rest) ←
    Arguments.readLeading (.version :: CommandForm.common) {} none arguments
  if name = "help" then throw (helpOn rest)
  match CommandForm.find? name with
  | none => throw (.misuse (.unknownCommand name))
  | some form =>
    let given ← Arguments.read (CommandForm.common ++ form.options) form.limit {} none rest
    return {
      settings := (given.value? .settings).or (leading.value? .settings)
      command := ← (form.command given).mapError .misuse }

end Invocation

end SwiftTree
