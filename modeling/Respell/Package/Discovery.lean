import Respell.Files.Path
import Respell.Package.Extraction
import Respell.Text.Quoted

/-!
Discovery: the modules directly inside a package directory, in the order of their file names.
-/

set_option autoImplicit false

namespace Respell

/-- What a directory holds under a name: a file, or a directory with the names of its own files. -/
inductive EntryKind
  | file
  | directory (files : List String)
  deriving DecidableEq

/-- An entry of a directory. -/
structure Entry where
  /-- Name of the entry. -/
  name : FileName
  /-- What it is. -/
  kind : EntryKind
  deriving DecidableEq

/-- A module file. -/
structure DiscoveredModule where
  /-- Name of the module. -/
  name : String
  /-- Path of its file. -/
  path : String
  deriving DecidableEq

/-- Whether a discovered module is the client module. -/
def DiscoveredModule.isClient (module : DiscoveredModule) : Bool := module.name == clientModule

/-- Name of the file that marks a package. -/
def packageMarker : String := "__init__"

/-- The module that a file name stands for, if it has one of the extensions. -/
def moduleName? (extensions : List String) (fileName : String) : Option String :=
  match Path.divide fileName with
  | (stem, some extension) => if extensions.contains extension then some stem else none
  | (_, none) => none

/-- Whether the files of a directory make it a package. -/
def isPackage (extensions : List String) (files : List String) : Bool :=
  extensions.any fun extension => files.contains (packageMarker ++ "." ++ extension)

/-- What one entry gives: a module, or a record that it is left out, or nothing. -/
def discoverEntry (directory : String) (excluded extensions : List String) (entry : Entry) :
    List DiscoveredModule × Diagnostics :=
  let path := Path.join directory entry.name.text
  match entry.kind with
  | .directory files =>
    if isPackage extensions files then
      ([], [⟨.warning, .skippedModule, "sub-package " ++ path ++ " skipped"⟩])
    else ([], [])
  | .file =>
    match moduleName? extensions entry.name.text with
    | none => ([], [])
    | some name =>
      if name == packageMarker then ([], [])
      else
        match excluded.find? fun start => start.toList.isPrefixOf name.toList with
        | some start =>
          ([], [⟨.debug, .skippedModule, "module " ++ name ++ " skipped (excluded prefix " ++
            Text.quoted start ++ ")"⟩])
        | none => ([⟨name, path⟩], [])

/-- The modules of a directory, and what was left out, in the order of file names. -/
def discover (directory : String) (excluded extensions : List String) (entries : List Entry) :
    List DiscoveredModule × Diagnostics :=
  let sorted := entries.mergeSort fun a b => a.name.text ≤ b.name.text
  let found := sorted.map (discoverEntry directory excluded extensions)
  (found.flatMap Prod.fst, found.flatMap Prod.snd)

/-- Adds what one entry gives to the modules found before, and the record that it is left out to a
collector. -/
def discoverEntryInto (directory : String) (excluded extensions : List String)
    (modules : List DiscoveredModule) (entry : Entry) : StateM Diagnostics (List DiscoveredModule) := do
  let (found, made) := discoverEntry directory excluded extensions entry
  modify fun records => records ++ made
  return modules ++ found

/-- The modules of a directory in the order of file names, what was left out added to a collector. -/
def discoverInto (directory : String) (excluded extensions : List String) (entries : List Entry) :
    StateM Diagnostics (List DiscoveredModule) :=
  (entries.mergeSort fun a b => a.name.text ≤ b.name.text).foldlM
    (discoverEntryInto directory excluded extensions) []

end Respell
