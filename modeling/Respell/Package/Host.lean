import Respell.Files.Tree
import Respell.Package.Discovery
import Respell.Token.Format

/-!
What a run sees of the files around it, and the operations that need it: loading a token table by
its path, discovering a package directory, and extracting the modules found.
-/

set_option autoImplicit false

namespace Respell

/-- Why a package directory was not searched. -/
inductive DiscoveryError
  | notDirectory (path : String)
  | unlisted (path : String) (cause : FileError)
  deriving DecidableEq

/-- Text of a discovery error. -/
def DiscoveryError.message : DiscoveryError → String
  | .notDirectory path => path ++ " is not a directory"
  | .unlisted path cause => "failed to list " ++ path ++ ": IO error for operation on " ++ path ++
    ": " ++ cause.message

/-- The files that a run can see. -/
structure Host where
  /-- The text of a file. -/
  readText : String → Except FileError String
  /-- The entries of a directory. -/
  list : String → Except DiscoveryError (List Entry)

/-- An entry for something that stands in a file tree. -/
def FileTree.entry (tree : FileTree) (place : Place) (child : FileName × FileItem) : Entry :=
  match child.2 with
  | .directory =>
    ⟨child.1, .directory ((tree.children (place ++ [child.1])).filterMap fun inner =>
      if inner.2 = .directory then none else some inner.1.text)⟩
  | _ => ⟨child.1, .file⟩

/-- The entries of a directory of a file tree. -/
def FileTree.list (tree : FileTree) (path : String) : Except DiscoveryError (List Entry) :=
  match tree.locate path with
  | .ok place =>
    if tree.item? place = some .directory then
      .ok ((tree.children place).map (tree.entry place))
    else .error (.notDirectory path)
  | .error _ => .error (.notDirectory path)

/-- The host that sees a file tree. -/
def FileTree.host (tree : FileTree) : Host := ⟨tree.readText, tree.list⟩

namespace Host

/-- Loads a token table in the format that its extension names. -/
def loadTable (host : Host) (path : String) : Except ConfigError TokenTable :=
  match host.readText path with
  | .error cause => .error (.file path cause)
  | .ok content =>
    match TableFormat.ofExtension? (Path.extension? path) with
    | some format => format.load content
    | none => .error (.unsupported (Path.extension? path))

/-- Lists the modules of a directory. -/
def discover (host : Host) (directory : String) (excluded extensions : List String) :
    Except DiscoveryError (List DiscoveredModule × Diagnostics) :=
  (host.list directory).map (Respell.discover directory excluded extensions)

/-- Lists the modules of a directory, what was left out added to a collector. A directory that cannot
be listed adds nothing. -/
def discoverInto (host : Host) (directory : String) (excluded extensions : List String) :
    ExceptT DiscoveryError (StateM Diagnostics) (List DiscoveredModule) := do
  match host.list directory with
  | .ok entries => Respell.discoverInto directory excluded extensions entries
  | .error cause => throw cause

/-- The texts of discovered modules. One that cannot be read is reported. -/
def sources (host : Host) : List DiscoveredModule → List ModuleSource × Diagnostics
  | [] => ([], [])
  | module :: rest =>
    let (more, records) := host.sources rest
    match host.readText module.path with
    | .ok source => (⟨module.name, source⟩ :: more, records)
    | .error cause =>
      (more, .report .extractionFailure ("Skipping module " ++ module.name ++ " (" ++
        module.path ++ "): " ++ cause.message) :: records)

/-- The units of discovered modules. -/
def extract (host : Host) (reader : Reader) (modules : List DiscoveredModule) :
    PackageUnits × Diagnostics :=
  let (sources, unread) := host.sources modules
  let (units, records) := extractPackage reader sources
  (units, unread ++ records)

end Host

end Respell
