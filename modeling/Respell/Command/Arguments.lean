/-!
The arguments of the command line. They are read from left to right, so that the first fault is
the one that is told, and options may stand before and after other arguments.
-/

set_option autoImplicit false

namespace Respell

/-- How a package is respelled. -/
structure PackageOptions where
  /-- Path of the token table. -/
  table : String
  /-- Modules whose names begin with one of these are left out. -/
  excluded : List String
  /-- Name of the package in the report. -/
  name : Option String
  /-- Whether the output is a JSON report. -/
  json : Bool
  /-- File that the output goes to. -/
  output : Option String
  /-- Package directory. -/
  directory : String
  deriving DecidableEq

/-- What is to be done. -/
inductive Command
  /-- Respells the functions of source files. -/
  | files (table : String) (paths : List String)
  /-- Respells the functions of a package directory. -/
  | package (options : PackageOptions)
  deriving DecidableEq

/-- A command, and whether diagnostics make it fail. -/
structure Invocation where
  /-- The command. -/
  command : Command
  /-- Whether diagnostics make it fail. -/
  deny : Bool
  deriving DecidableEq

namespace Arguments

/-- Options of the command line. -/
inductive Flag
  | table
  | exclude
  | packageName
  | json
  | output
  | deny
  | version
  | help
  deriving DecidableEq

namespace Flag

/-- Long name of an option. -/
def long : Flag → String
  | table => "config"
  | exclude => "exclude"
  | packageName => "package-name"
  | json => "json"
  | output => "output"
  | deny => "deny-diagnostics"
  | version => "version"
  | help => "help"

/-- Short name of an option. -/
def short? : Flag → Option Char
  | table => some 'c'
  | output => some 'o'
  | version => some 'V'
  | help => some 'h'
  | _ => none

/-- Whether an option has a value. -/
def takesValue : Flag → Bool
  | table | exclude | packageName | output => true
  | _ => false

/-- Whether an option may be given more than once. -/
def repeats : Flag → Bool
  | exclude => true
  | _ => false

/-- Whether the value of an option is a path, which is never empty. -/
def isPath : Flag → Bool
  | table | output => true
  | _ => false

end Flag

/-- Options before the name of a command. -/
def mainFlags : List Flag := [.deny, .version, .help]

/-- Options of the command for files. -/
def filesFlags : List Flag := [.table, .deny, .help]

/-- Options of the command for packages. -/
def packageFlags : List Flag := [.table, .exclude, .packageName, .json, .output, .deny, .help]

/-- Why arguments were not understood. -/
inductive UsageError
  | missingCommand
  | unknownCommand (name : String)
  | unknownOption (text : String)
  | missingValue (flag : Flag)
  | unexpectedValue (flag : Flag)
  | emptyPath
  | repeated (flag : Flag)
  | missing (what : String)
  | unexpected (argument : String)
  deriving DecidableEq

/-- Text of a usage error. -/
def UsageError.message : UsageError → String
  | .missingCommand => "a command is required"
  | .unknownCommand name => "unrecognized command '" ++ name ++ "'"
  | .unknownOption text => "unexpected argument '" ++ text ++ "'"
  | .missingValue flag => "a value is required for '--" ++ flag.long ++ "'"
  | .unexpectedValue flag => "unexpected value for '--" ++ flag.long ++ "'"
  | .emptyPath => "a path may not be empty"
  | .repeated flag => "'--" ++ flag.long ++ "' cannot be used multiple times"
  | .missing what => "required argument " ++ what ++ " was not provided"
  | .unexpected argument => "unexpected argument '" ++ argument ++ "'"

/-- Why reading stopped before a command was complete. -/
inductive Stop
  | usage (error : UsageError)
  | version
  | help
  deriving DecidableEq

/-- What an argument is. -/
inductive Shape
  /-- The mark after which no argument is an option. -/
  | divider
  | long (name : String) (value : Option String)
  | short (name : Char) (rest : List Char)
  | word
  deriving DecidableEq

/-- The shape of an argument. -/
def shapeOf (argument : String) : Shape :=
  match argument.toList with
  | ['-', '-'] => .divider
  | '-' :: '-' :: text =>
    let name := text.takeWhile (· != '=')
    match text.drop name.length with
    | _ :: value => .long (String.ofList name) (some (String.ofList value))
    | [] => .long (String.ofList name) none
  | '-' :: name :: rest => .short name rest
  | _ => .word

/-- The value that follows a short name directly. -/
def attachedValue? : List Char → Option String
  | [] => none
  | '=' :: value => some (String.ofList value)
  | value => some (String.ofList value)

/-- The option of an argument and the value written with it; nothing if it is no option. -/
def optionOf? (allowed : List Flag) (argument : String) :
    Except UsageError (Option (Flag × Option String)) :=
  match shapeOf argument with
  | .divider => .ok none
  | .word => .ok none
  | .long name value =>
    match allowed.find? fun flag => flag.long == name with
    | some flag => .ok (some (flag, value))
    | none => .error (.unknownOption argument)
  | .short name rest =>
    match allowed.find? fun flag => flag.short? == some name with
    | some flag => .ok (some (flag, if flag.takesValue then attachedValue? rest else none))
    | none => .error (.unknownOption argument)

/-- Options with their values, and all other arguments. -/
structure Parsed where
  /-- Options in order. -/
  options : List (Flag × String)
  /-- Other arguments in order. -/
  words : List String
  deriving DecidableEq

namespace Parsed

/-- No arguments. -/
def empty : Parsed := ⟨[], []⟩

/-- Whether an option was given. -/
def has (parsed : Parsed) (flag : Flag) : Bool := parsed.options.any fun option => option.1 = flag

/-- Values of an option. -/
def values (parsed : Parsed) (flag : Flag) : List String :=
  (parsed.options.filter fun option => option.1 = flag).map Prod.snd

/-- Value of an option that is given once at most. -/
def value? (parsed : Parsed) (flag : Flag) : Option String := (parsed.values flag).head?

/-- Adds an option. Asking for help or the version stops. -/
def addOption (parsed : Parsed) (flag : Flag) (value : String) : Except Stop Parsed :=
  if flag = .help then .error .help
  else if flag = .version then .error .version
  else if parsed.has flag && !flag.repeats then .error (.usage (.repeated flag))
  else if flag.isPath && value.isEmpty then .error (.usage .emptyPath)
  else .ok { parsed with options := parsed.options ++ [(flag, value)] }

/-- Adds another argument, of which there may be so many. -/
def addWord (parsed : Parsed) (limit : Option Nat) (word : String) : Except Stop Parsed :=
  if limit.any fun limit => limit ≤ parsed.words.length then .error (.usage (.unexpected word))
  else if word.isEmpty then .error (.usage .emptyPath)
  else .ok { parsed with words := parsed.words ++ [word] }

end Parsed

/-- Reads the arguments of a command. -/
def read (allowed : List Flag) (limit : Option Nat) (parsed : Parsed) :
    List String → Except Stop Parsed
  | [] => .ok parsed
  | argument :: rest =>
    match optionOf? allowed argument with
    | .error error => .error (.usage error)
    | .ok none =>
      if shapeOf argument = .divider then
        rest.foldlM (fun parsed word => parsed.addWord limit word) parsed
      else do
        let parsed ← parsed.addWord limit argument
        read allowed limit parsed rest
    | .ok (some (flag, some value)) =>
      if flag.takesValue then do
        let parsed ← parsed.addOption flag value
        read allowed limit parsed rest
      else .error (.usage (.unexpectedValue flag))
    | .ok (some (flag, none)) =>
      if flag.takesValue then
        match rest with
        | [] => .error (.usage (.missingValue flag))
        | value :: rest =>
          if shapeOf value = .word then do
            let parsed ← parsed.addOption flag value
            read allowed limit parsed rest
          else .error (.usage (.missingValue flag))
      else do
        let parsed ← parsed.addOption flag ""
        read allowed limit parsed rest

/-- The path of the token table, which must be given. -/
def tableOf (parsed : Parsed) : Except Stop String :=
  match parsed.value? .table with
  | some path => .ok path
  | none => .error (.usage (.missing "--config"))

/-- The command for files. -/
def readFiles (arguments : List String) : Except Stop Invocation := do
  let parsed ← read filesFlags none .empty arguments
  let table ← tableOf parsed
  if parsed.words.isEmpty then .error (.usage (.missing "FILES"))
  else .ok ⟨.files table parsed.words, parsed.has .deny⟩

/-- The command for packages. -/
def readPackage (arguments : List String) : Except Stop Invocation := do
  let parsed ← read packageFlags (some 1) .empty arguments
  let table ← tableOf parsed
  match parsed.words with
  | directory :: _ =>
    .ok ⟨.package ⟨table, parsed.values .exclude, parsed.value? .packageName, parsed.has .json,
      parsed.value? .output, directory⟩, parsed.has .deny⟩
  | [] => .error (.usage (.missing "DIR"))

/-- Reads a command by its name. -/
def readCommand (name : String) (arguments : List String) : Except Stop Invocation :=
  if name == "translate" then readFiles arguments
  else if name == "package" then readPackage arguments
  else if name == "help" then .error .help
  else .error (.usage (.unknownCommand name))

/-- Reads all arguments; `parsed` are the options before the name of a command. -/
def readAll (parsed : Parsed) : List String → Except Stop Invocation
  | [] => .error (.usage .missingCommand)
  | argument :: rest =>
    match optionOf? mainFlags argument with
    | .error error => .error (.usage error)
    | .ok none =>
      if shapeOf argument = .divider then .error (.usage .missingCommand)
      else do
        let invocation ← readCommand argument rest
        .ok { invocation with deny := invocation.deny || parsed.has .deny }
    | .ok (some (flag, some _)) => .error (.usage (.unexpectedValue flag))
    | .ok (some (flag, none)) => do
      let parsed ← parsed.addOption flag ""
      readAll parsed rest

/-- The invocation that arguments ask for. -/
def parse (arguments : List String) : Except Stop Invocation := readAll .empty arguments

end Arguments

end Respell
