import Respell.Command.Run

/-!
The command line. Files are read before a run and its output is written after it. The names in a
package directory are taken from standard input, one a line.
-/

set_option autoImplicit false

namespace Respell.Main

/-- The number of a system error, which may come negated. -/
def errorNumber (code : UInt32) : Nat :=
  if code.toNat < Int32.size / 2 then code.toNat else UInt32.size - code.toNat

/-- The cause of a failed file operation. -/
def fileError : IO.Error → FileError
  | .noFileOrDirectory .. => .notFound
  | .inappropriateType _ code _ =>
    if errorNumber code == 20 then .notDirectory else .isDirectory
  | .invalidArgument _ code reason =>
    if errorNumber code == 36 then .nameTooLong else .other reason
  | error => .other (toString error)

/-- Reads a text file. -/
def readText (path : String) : IO (Except FileError String) := do
  if path.isEmpty then return .error .notFound
  try
    match String.fromUTF8? (← IO.FS.readBinFile path) with
    | some text => return .ok text
    | none => return .error .notText
  catch error => return .error (fileError error)

/-- Writes a text file. -/
def writeText (path text : String) : IO (Except FileError Unit) := do
  try
    IO.FS.writeFile path text
    return .ok ()
  catch error => return .error (fileError error)

/-- Whether a path leads to a directory. -/
def isDirectory (path : String) : IO Bool := do
  match ← readText path with
  | .error .isDirectory => return true
  | _ => return false

/-- Whether a path leads to a file. -/
def isFile (path : String) : IO Bool := do
  match ← readText path with
  | .ok _ => return true
  | .error .notText => return true
  | .error _ => return false

/-- Lines of standard input, without their ends. -/
partial def inputLines (input : IO.FS.Stream) : IO (List String) := do
  let line ← input.getLine
  if line.isEmpty then return []
  return (line.dropEndWhile (· == '\n')).toString :: (← inputLines input)

/-- An entry of a directory. -/
def entry (directory : String) (name : FileName) : IO Entry := do
  let path := Path.join directory name.text
  if ← isDirectory path then
    let markers := Source.reader.extensions.map fun extension => packageMarker ++ "." ++ extension
    return ⟨name, .directory (← markers.filterM fun marker => isFile (Path.join path marker))⟩
  else return ⟨name, .file⟩

/-- The entries of a directory, whose names come from standard input. -/
def list (directory : String) : IO (Except DiscoveryError (List Entry)) := do
  if ← isDirectory directory then
    let names ← inputLines (← IO.getStdin)
    return .ok (← (names.filterMap FileName.ofString?).mapM (entry directory))
  else return .error (.notDirectory directory)

/-- The directory entries that a command sees. -/
def entriesFor : Command → IO (Except DiscoveryError (List Entry))
  | .files .. => return .ok []
  | .package options => list options.directory

/-- The source files that a command may read. -/
def pathsFor (command : Command) (entries : Except DiscoveryError (List Entry)) : List String :=
  match command, entries with
  | .files _ paths, _ => paths
  | .package options, .ok entries =>
    (discover options.directory options.excluded Source.reader.extensions entries).1.map
      DiscoveredModule.path
  | .package _, .error _ => []

/-- The host of a command, with all files that it may read. -/
def host (command : Command) : IO Host := do
  let entries ← entriesFor command
  let texts ← (command.table :: pathsFor command entries).mapM fun path => do
    return (path, ← readText path)
  let read (path : String) : Except FileError String :=
    match texts.find? fun text => text.1 == path with
    | some (_, text) => text
    | none => .error .notFound
  return ⟨read, fun _ => entries⟩

/-- Prints how a run ends. -/
def finish (outcome : Outcome) : IO UInt32 := do
  IO.print outcome.output
  IO.eprint outcome.errors
  return outcome.code.toUInt32

/-- Runs a command. -/
def run (invocation : Invocation) : IO UInt32 := do
  let job := invocation.command.job (← host invocation.command)
  match job.written with
  | none => finish (job.outcome invocation.deny)
  | some (path, text) =>
    match ← writeText path text with
    | .ok _ => finish (job.outcome invocation.deny)
    | .error cause => finish ((job.unwritten cause).outcome invocation.deny)

end Respell.Main

open Respell in
/-- Runs the program with its arguments. -/
def main (arguments : List String) : IO UInt32 :=
  match Arguments.parse arguments with
  | .ok invocation => Main.run invocation
  | .error .version => Main.finish ⟨0, versionText, ""⟩
  | .error .help => Main.finish ⟨0, helpText, ""⟩
  | .error (.usage error) => Main.finish ⟨2, "", "error: " ++ error.message ++ "\n"⟩
