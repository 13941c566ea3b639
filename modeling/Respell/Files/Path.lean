/-!
Paths: their parts, the name of the file they lead to, and its stem and extension.
-/

set_option autoImplicit false

namespace Respell.Path

/-- The parts of a path between slashes. -/
def split : List Char → List (List Char)
  | [] => [[]]
  | c :: rest =>
    match split rest with
    | first :: more => if c == '/' then [] :: first :: more else (c :: first) :: more
    | [] => [[c]]

/-- The parts that lead somewhere: empty ones and single dots do not. -/
def parts (path : String) : List String :=
  ((split path.toList).map String.ofList).filter fun part => part != "" && part != "."

/-- The name of the file that a path leads to; none after two dots. -/
def fileName? (path : String) : Option String :=
  match (parts path).getLast? with
  | some ".." => none
  | name => name

/-- A file name divided at its last dot, if that does not come first. -/
def divide (name : String) : String × Option String :=
  let reversed := name.toList.reverse
  let extension := (reversed.takeWhile (· != '.')).reverse
  match (reversed.drop extension.length).reverse with
  | [] => (name, none)
  | [_] => (name, none)
  | stem => (String.ofList stem.dropLast, some (String.ofList extension))

/-- The extension of the file that a path leads to. -/
def extension? (path : String) : Option String := (fileName? path).bind fun name => (divide name).2

/-- The name of the file that a path leads to, without its extension. -/
def stem? (path : String) : Option String := (fileName? path).map fun name => (divide name).1

/-- A file in a directory. -/
def join (directory name : String) : String :=
  if directory.toList.getLast? == some '/' then directory ++ name else directory ++ "/" ++ name

/-- Whether a text can name something in a directory. -/
def isName (text : String) : Bool :=
  text != "" && text != "." && text != ".." && !text.toList.contains '/'

end Respell.Path

namespace Respell

/-- The name of something in a directory. -/
structure FileName where
  /-- The name as a text. -/
  text : String
  /-- It leads to one thing, directly in the directory. -/
  proper : Path.isName text = true
  deriving DecidableEq

/-- The name that a text is, if it is one. -/
def FileName.ofString? (text : String) : Option FileName :=
  if proper : Path.isName text = true then some ⟨text, proper⟩ else none

end Respell
