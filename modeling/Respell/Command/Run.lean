import Respell.Command.Arguments
import Respell.Json.Printer
import Respell.Package.Host
import Respell.Reader.Registry
import Respell.Source.Members

/-!
Running commands. A run sees files through a host and says what it prints, what it writes to a
file and how it ends; nothing else happens.
-/

set_option autoImplicit false

namespace Respell

/-- The readers that commands use. -/
def Registry.standard : Registry := ⟨[Source.reader]⟩

/-- Why a command failed. -/
inductive CommandError
  | table (path : String) (cause : ConfigError)
  | noReader (path : String)
  | reading (path : String) (cause : FileError)
  | parsing (path : String) (cause : ReadError)
  | discovering (package : String) (cause : DiscoveryError)
  | writing (path : String) (cause : FileError)

/-- What went wrong with a token table; the cause of a failed reading is told once more. -/
def ConfigError.chain (error : ConfigError) : String :=
  match error with
  | .file _ cause => error.message ++ ": " ++ cause.message
  | _ => error.message

/-- Text of a command error. -/
def CommandError.message : CommandError → String
  | .table path cause => "loading token table " ++ path ++ ": " ++ cause.chain
  | .noReader path => "no reader for " ++ path
  | .reading path cause => "reading " ++ path ++ ": " ++ cause.message
  | .parsing path cause => "parsing " ++ path ++ ": " ++ cause.message
  | .discovering package cause => "discovering package " ++ package ++ ": " ++ cause.message
  | .writing path cause => "writing " ++ path ++ ": " ++ cause.message

/-- What a command does. -/
structure Job where
  /-- Text for standard output. -/
  printed : String
  /-- A file and the text for it. -/
  written : Option (String × String)
  /-- The diagnostics, or why the command failed. -/
  result : Except CommandError Diagnostics

/-- A job that fails at once. -/
def Job.failed (error : CommandError) : Job := ⟨"", none, .error error⟩

/-- Rendered functions, each followed by an empty line. -/
def listing (texts : List String) : String := String.join (texts.map fun text => text ++ "\n\n")

/-- Respells the functions of one file. -/
def respellFile (host : Host) (registry : Registry) (table : TokenTable) (path : String) :
    Except CommandError (String × Diagnostics) :=
  match registry.forExtension? ((Path.extension? path).getD "") with
  | none => .error (.noReader path)
  | some reader =>
    match host.readText path with
    | .error cause => .error (.reading path cause)
    | .ok source =>
      match reader.members source with
      | .error cause => .error (.parsing path cause)
      | .ok members =>
        let name := (Path.stem? path).getD ""
        let (module, records) := extractModule reader (Policy.forModule name) name members
        let (texts, rendering) := module.respellFunctions table
        .ok (listing texts.values, records ++ rendering)

/-- Respells the functions of files in order. What was printed stays when a later file fails. -/
def respellFiles (host : Host) (registry : Registry) (table : TokenTable) :
    List String → String × Except CommandError Diagnostics
  | [] => ("", .ok [])
  | path :: rest =>
    match respellFile host registry table path with
    | .error error => ("", .error error)
    | .ok (text, records) =>
      let (more, result) := respellFiles host registry table rest
      (text ++ more, result.map (records ++ ·))

/-- A diagnostic in a report. -/
def Diagnostic.toJson (record : Diagnostic) : Json :=
  .object [("level", .string record.level.name), ("kind", .string record.kind.name),
    ("message", .string record.message)]

/-- The report on a package. -/
def packageReport (name : String) (functions : NameMap (NameMap String)) (records : Diagnostics) :
    Json :=
  .object [
    ("package", .string name),
    ("functions", .object (functions.entries.map fun (module, texts) =>
      (module, .object (texts.entries.map fun (name, text) => (name, .string text))))),
    ("diagnostics", .array (records.map Diagnostic.toJson))]

/-- Name of a package in reports. -/
def PackageOptions.reportName (options : PackageOptions) : String :=
  match options.name with
  | some name => name
  | none => (Path.fileName? options.directory).getD "package"

/-- The output for a package: a report, or the texts alone. -/
def PackageOptions.text (options : PackageOptions) (functions : NameMap (NameMap String))
    (records : Diagnostics) : String :=
  if options.json then (packageReport options.reportName functions records).pretty
  else listing (functions.values.flatMap NameMap.values)

/-- Respells a package directory. -/
def respellPackage (host : Host) (table : TokenTable) (options : PackageOptions) : Job :=
  let reader := Source.reader
  match host.discover options.directory options.excluded reader.extensions with
  | .error cause => .failed (.discovering options.reportName cause)
  | .ok (modules, skipped) =>
    let (units, extraction) := host.extract reader modules
    let (functions, rendering) := units.respell table
    let records := skipped ++ extraction ++ rendering
    let text := options.text functions records
    match options.output with
    | some path => ⟨"", some (path, text), .ok records⟩
    | none => ⟨text, none, .ok records⟩

/-- Path of the token table of a command. -/
def Command.table : Command → String
  | .files table _ => table
  | .package options => options.table

/-- What a command does. -/
def Command.job (host : Host) (command : Command) : Job :=
  match host.loadTable command.table with
  | .error cause => .failed (.table command.table cause)
  | .ok table =>
    match command with
    | .files _ paths =>
      let (printed, result) := respellFiles host .standard table paths
      ⟨printed, none, result⟩
    | .package options => respellPackage host table options

/-- The job after its file could not be written. -/
def Job.unwritten (job : Job) (cause : FileError) : Job :=
  match job.written with
  | some (path, _) => { job with result := .error (.writing path cause) }
  | none => job

/-- How a run ends. -/
structure Outcome where
  /-- Exit code. -/
  code : Nat
  /-- Text on standard output. -/
  output : String
  /-- Text on standard error. -/
  errors : String
  deriving DecidableEq

/-- The line that sums up diagnostics. -/
def summary (records : Diagnostics) : String :=
  toString records.length ++ " diagnostics (" ++ toString (records.countAt .error) ++ " errors, " ++
    toString (records.countAt .warning) ++ " warnings)\n"

/-- How a job ends. Diagnostics above the debug level are summed up, and make the run fail if they
are denied. -/
def Job.outcome (job : Job) (deny : Bool) : Outcome :=
  match job.result with
  | .error error => ⟨1, job.printed, "error: " ++ error.message ++ "\n"⟩
  | .ok records =>
    if records.isClean then ⟨0, job.printed, ""⟩
    else ⟨if deny then 2 else 0, job.printed, summary records⟩

/-- Name and version of the program. -/
def versionText : String := "transcoder 0.1.0\n"

/-- How the program is used. -/
def helpText : String :=
  "Usage: transcoder [--deny-diagnostics] <COMMAND>\n\n" ++
  "  translate -c <TABLE> <FILES>...\n" ++
  "  package -c <TABLE> [--exclude <START>]... [--package-name <NAME>] [--json] [-o <FILE>] <DIR>\n"

/-- Runs a command in a file tree. -/
def Invocation.run (invocation : Invocation) (tree : FileTree) : FileTree × Outcome :=
  let job := invocation.command.job tree.host
  match job.written with
  | none => (tree, job.outcome invocation.deny)
  | some (path, text) =>
    match tree.writeText path text with
    | .ok written => (written, job.outcome invocation.deny)
    | .error cause => (tree, (job.unwritten cause).outcome invocation.deny)

/-- Runs the program in a file tree. -/
def execute (tree : FileTree) (arguments : List String) :
    Except Arguments.UsageError (FileTree × Outcome) :=
  match Arguments.parse arguments with
  | .ok invocation => .ok (invocation.run tree)
  | .error .version => .ok (tree, ⟨0, versionText, ""⟩)
  | .error .help => .ok (tree, ⟨0, helpText, ""⟩)
  | .error (.usage error) => .error error

end Respell
