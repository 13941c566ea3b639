import Respell.Files.Error
import Respell.Files.Path

/-!
A tree of files and directories below a working directory, in which paths are followed part by part.
-/

set_option autoImplicit false

namespace Respell

/-- What stands at a place of a file tree. -/
inductive FileItem
  /-- A file that holds text. -/
  | text (content : String)
  /-- A file that holds no valid text. -/
  | binary
  | directory
  deriving DecidableEq

/-- Names that lead from the working directory to a place. -/
abbrev Place := List FileName

/-- Files and directories by place. The working directory itself is not listed. -/
structure FileTree where
  /-- Each place with what stands there. -/
  items : List (Place × FileItem)
  /-- One thing stands at a place. -/
  distinct : items.Pairwise fun a b => a.1 ≠ b.1

namespace FileTree

/-- The tree with nothing in it. -/
def empty : FileTree := ⟨[], .nil⟩

/-- What stands at a place. -/
def item? (tree : FileTree) (place : Place) : Option FileItem :=
  if place = [] then some .directory
  else (tree.items.find? fun entry => entry.1 == place).map Prod.snd

/-- Puts something at a place, instead of what stood there. -/
def put (tree : FileTree) (place : Place) (item : FileItem) : FileTree where
  items := (tree.items.filter fun entry => entry.1 != place) ++ [(place, item)]
  distinct := by
    refine List.pairwise_append.2 ⟨tree.distinct.filter _, List.pairwise_singleton .., ?_⟩
    intro kept member last isLast
    obtain rfl := List.mem_singleton.1 isLast
    simpa using (List.mem_filter.1 member).2

/-- Puts something at a place and makes the directories above it that do not exist. -/
def build (tree : FileTree) (path : String) (item : FileItem) : FileTree :=
  let place := (Path.parts path).filterMap FileName.ofString?
  let above := (List.range place.length).map fun length => place.take length
  let tree := above.foldl
    (fun tree place => if (tree.item? place).isSome then tree else tree.put place .directory) tree
  tree.put place item

/-- Follows parts of a path from a place. Every part but the last leads through a directory, and
so do empty parts and dots. -/
def follow (tree : FileTree) (place : Place) : List String → Except FileError Place
  | [] => .ok place
  | part :: rest =>
    match tree.item? place with
    | none => .error .notFound
    | some .directory =>
      if part == "" || part == "." then tree.follow place rest
      else if part == ".." then tree.follow place.dropLast rest
      else if 255 < part.utf8ByteSize then .error .nameTooLong
      else
        match FileName.ofString? part with
        | some name =>
          if (tree.item? (place ++ [name])).isSome then tree.follow (place ++ [name]) rest
          else .error .notFound
        | none => .error .notFound
    | some _ => .error .notDirectory

/-- The parts of a path, if it is one that can be followed. -/
def route (path : String) : Except FileError (List String) :=
  if path.toList.contains '\x00' then .error .nullCharacter
  else if path.isEmpty || path.toList.head? == some '/' then .error .notFound
  else if 4096 ≤ path.utf8ByteSize then .error .nameTooLong
  else .ok ((Path.split path.toList).map String.ofList)

/-- The place that a path leads to. -/
def locate (tree : FileTree) (path : String) : Except FileError Place :=
  (route path).bind (tree.follow [])

/-- The text of a file. -/
def readText (tree : FileTree) (path : String) : Except FileError String := do
  let place ← tree.locate path
  match tree.item? place with
  | some (.text content) => .ok content
  | some .binary => .error .notText
  | some .directory => .error .isDirectory
  | none => .error .notFound

/-- The place that writing to a path would fill. A path that ends in a slash names no file. -/
def target (tree : FileTree) (path : String) : Except FileError Place := do
  let parts ← route path
  let named := (parts.reverse.dropWhile (· == "")).reverse
  let last := named.getLastD ""
  let place ← tree.follow [] named.dropLast
  match tree.item? place with
  | some .directory =>
    match FileName.ofString? last with
    | some name =>
      if named.length < parts.length then .error .isDirectory
      else if 255 < last.utf8ByteSize then .error .nameTooLong
      else if tree.item? (place ++ [name]) = some .directory then .error .isDirectory
      else .ok (place ++ [name])
    | none => .error .isDirectory
  | some _ => .error .notDirectory
  | none => .error .notFound

/-- Writes a text to a file, which is made if it does not exist. -/
def writeText (tree : FileTree) (path text : String) : Except FileError FileTree :=
  (tree.target path).map fun place => tree.put place (.text text)

/-- The name of an item that stands directly below a place. -/
def child? (place : Place) (entry : Place × FileItem) : Option (FileName × FileItem) :=
  match entry.1.getLast? with
  | some name => if entry.1.dropLast == place then some (name, entry.2) else none
  | none => none

/-- What stands directly below a place, by name. -/
def children (tree : FileTree) (place : Place) : List (FileName × FileItem) :=
  tree.items.filterMap (child? place)

end FileTree

end Respell
