import Respell.Json.Basic
import Respell.Syntax.Basic
import Respell.Text.Digits

/-!
Syntax trees as JSON: a node is an object with one member, named for its kind. A float is the text
`f64:` and the sixteen hexadecimal digits of its pattern.
-/

set_option autoImplicit false

namespace Respell.Syntax

/-- The least number of hexadecimal digits, filled up with zeros to a width. -/
def hexPadded (width n : Nat) : String :=
  let digits := Nat.toDigits 16 n
  String.ofList (List.replicate (width - digits.length) '0' ++ digits)

/-- The text of a float pattern. -/
def floatText (bits : UInt64) : String := "f64:" ++ hexPadded 16 bits.toNat

/-- The pattern that a float text gives. -/
def floatOfText? (text : String) : Option UInt64 :=
  match text.toList with
  | 'f' :: '6' :: '4' :: ':' :: digits =>
    match Text.number? 16 Text.isHexDigit digits with
    | some value => if value < UInt64.size then some (UInt64.ofNat value) else none
    | none => none
  | _ => none

namespace Constant

/-- A literal value as JSON. -/
def toJson : Constant → Json
  | .none => .string "None"
  | .bool value => .object [("Bool", .bool value)]
  | .int value => .object [("Int", .int value.toInt)]
  | .float bits => .object [("Float", .string (floatText bits))]
  | .str text => .object [("Str", .string text)]
  | .ellipsis => .string "Ellipsis"

end Constant

/-- An optional value as JSON. -/
def optional (value : Option Json) : Json := value.getD .null

mutual

/-- An expression as JSON. -/
def Expr.toJson : Expr → Json
  | .call func args keywords =>
    .object [("Call", .object
      [("func", func.toJson), ("args", .array (exprsToJson args)),
       ("keywords", .array (keywordsToJson keywords))])]
  | .name text => .object [("Name", .string text)]
  | .constant value => .object [("Constant", value.toJson)]
  | .attribute value attr =>
    .object [("Attribute", .object [("value", value.toJson), ("attr", .string attr)])]
  | .binaryOp left op right =>
    .object [("BinaryOp", .object
      [("left", left.toJson), ("op", .string op.tag), ("right", right.toJson)])]
  | .booleanOp op values =>
    .object [("BooleanOp", .object
      [("op", .string op.tag), ("values", .array (exprsToJson values))])]
  | .compare left ops comparators =>
    .object [("Compare", .object
      [("left", left.toJson), ("ops", .array (ops.map fun op => .string op.tag)),
       ("comparators", .array (exprsToJson comparators))])]
  | .subscript value index =>
    .object [("Subscript", .object [("value", value.toJson), ("index", index.toJson)])]
  | .dict entries => .object [("Dict", .array (entriesToJson entries))]
  | .list items => .object [("List", .array (exprsToJson items))]
  | .tuple items => .object [("Tuple", .array (exprsToJson items))]
  | .other kind => .object [("Other", .object [("kind", .string kind)])]

/-- Expressions as JSON. -/
def exprsToJson : List Expr → List Json
  | [] => []
  | expr :: rest => expr.toJson :: exprsToJson rest

/-- Named arguments as JSON. -/
def keywordsToJson : List Keyword → List Json
  | [] => []
  | .named arg value :: rest =>
    .object [("arg", .string arg), ("value", value.toJson)] :: keywordsToJson rest
  | .spread value :: rest =>
    .object [("arg", .null), ("value", value.toJson)] :: keywordsToJson rest

/-- Dictionary entries as JSON. -/
def entriesToJson : List DictEntry → List Json
  | [] => []
  | .keyed key value :: rest =>
    .object [("key", key.toJson), ("value", value.toJson)] :: entriesToJson rest
  | .spread value :: rest =>
    .object [("key", .null), ("value", value.toJson)] :: entriesToJson rest

end

mutual

/-- A statement as JSON. -/
def Stmt.toJson : Stmt → Json
  | .assign targets value =>
    .object [("Assign", .object
      [("targets", .array (exprsToJson targets)), ("value", value.toJson)])]
  | .expr value => .object [("Expr", value.toJson)]
  | .returns value => .object [("Return", optional (value.map Expr.toJson))]
  | .functionDef definition => .object [("FunctionDef", definition.toJson)]
  | .forEach target iter body orelse =>
    .object [("ForEach", .object
      [("target", target.toJson), ("iter", iter.toJson), ("body", .array (stmtsToJson body)),
       ("orelse", .array (stmtsToJson orelse))])]
  | .ifElse test body orelse =>
    .object [("If", .object
      [("test", test.toJson), ("body", .array (stmtsToJson body)),
       ("orelse", .array (stmtsToJson orelse))])]
  | .whileLoop test body orelse =>
    .object [("While", .object
      [("test", test.toJson), ("body", .array (stmtsToJson body)),
       ("orelse", .array (stmtsToJson orelse))])]
  | .other kind => .object [("Other", .object [("kind", .string kind)])]

/-- A function as JSON. -/
def FunctionDef.toJson : FunctionDef → Json
  | .mk name params body =>
    .object [("name", .string name), ("params", .array (params.map .string)),
      ("body", .array (stmtsToJson body))]

/-- Statements as JSON. -/
def stmtsToJson : List Stmt → List Json
  | [] => []
  | stmt :: rest => stmt.toJson :: stmtsToJson rest

end

/-- A module as JSON. -/
def Module.toJson (module : Module) : Json := .object [("body", .array (stmtsToJson module.body))]

/-- Tag and content of a node: an object with one member. -/
def tagged? : Json → Option (String × Json)
  | .object [(tag, content)] => some (tag, content)
  | _ => none

/-- A tag without content, alone or with a null beside it. -/
def tag? : Json → Option String
  | .string tag => some tag
  | .object [(tag, .null)] => some tag
  | _ => none

/-- The integer of a number, if it fits 64 bits. -/
def int? : Json → Option Int64
  | .number text =>
    let (negative, digits) := match text.toList with
      | '-' :: digits => (true, digits)
      | digits => (false, digits)
    match Text.number? 10 Char.isDigit digits with
    | some value =>
      if negative then
        if 0 < value && value ≤ Int64.size / 2 then some (Int64.ofInt (-value)) else none
      else if value < Int64.size / 2 then some (Int64.ofNat value) else none
    | none => none
  | _ => none

/-- The literal value of a JSON value. -/
def Constant.ofJson? (json : Json) : Option Constant :=
  match tag? json, tagged? json with
  | some "None", _ => some .none
  | some "Ellipsis", _ => some .ellipsis
  | _, some ("Bool", content) => content.bool?.map .bool
  | _, some ("Int", content) => (int? content).map .int
  | _, some ("Float", content) => (content.string?.bind floatOfText?).map .float
  | _, some ("Str", content) => content.string?.map .str
  | _, _ => Option.none

/-- The values of a record's fields, from an object or from an array in the same order. A field that
may be missing is read as null. -/
def fields? (names : List String) (optionals : List String) : Json → Option (List Json)
  | .array items => if items.length == names.length then some items else none
  | .object members => names.mapM fun name =>
      (Json.lookup name members).or (if optionals.contains name then some .null else none)
  | _ => none

/-- The values of a node's fields, from an object alone. -/
def nodeFields? (names : List String) : Json → Option (List Json)
  | .object members => names.mapM fun name => Json.lookup name members
  | _ => none

/-- An optional value: null stands for none. -/
def optional? {α : Type} (decode : Json → Option α) : Json → Option (Option α)
  | .null => some none
  | json => (decode json).map some

/-- All values of an array. -/
def all? {α : Type} (decode : Json → Option α) : Json → Option (List α)
  | .array items => items.mapM decode
  | _ => none

/-- A named argument, given how values are read. -/
def keyword? (decode : Json → Option Expr) (json : Json) : Option Keyword := do
  match ← fields? ["arg", "value"] ["arg"] json with
  | [arg, value] =>
    let arg ← optional? Json.string? arg
    let value ← decode value
    return match arg with
      | some name => .named name value
      | none => .spread value
  | _ => none

/-- A dictionary entry, given how values are read. -/
def dictEntryOf? (decode : Json → Option Expr) (json : Json) : Option DictEntry := do
  match ← fields? ["key", "value"] ["key"] json with
  | [key, value] =>
    let key ← optional? decode key
    let value ← decode value
    return match key with
      | some key => .keyed key value
      | none => .spread value
  | _ => none

/-- The expression of a JSON value that nests less deep than a bound. -/
def exprWithin? : Nat → Json → Option Expr
  | 0, _ => none
  | depth + 1, json => do
    let expr := exprWithin? depth
    let exprs := all? expr
    let (tag, content) ← tagged? json
    match tag with
    | "Call" =>
      match ← nodeFields? ["func", "args", "keywords"] content with
      | [func, args, keywords] =>
        return .call (← expr func) (← exprs args) (← all? (keyword? expr) keywords)
      | _ => none
    | "Name" => return .name (← content.string?)
    | "Constant" => return .constant (← Constant.ofJson? content)
    | "Attribute" =>
      match ← nodeFields? ["value", "attr"] content with
      | [value, attr] => return .attribute (← expr value) (← attr.string?)
      | _ => none
    | "BinaryOp" =>
      match ← nodeFields? ["left", "op", "right"] content with
      | [left, op, right] =>
        return .binaryOp (← expr left) (← (tag? op).bind BinaryOperator.ofTag?) (← expr right)
      | _ => none
    | "BooleanOp" =>
      match ← nodeFields? ["op", "values"] content with
      | [op, values] =>
        return .booleanOp (← (tag? op).bind BooleanOperator.ofTag?) (← exprs values)
      | _ => none
    | "Compare" =>
      match ← nodeFields? ["left", "ops", "comparators"] content with
      | [left, ops, comparators] =>
        return .compare (← expr left)
          (← all? (fun op => (tag? op).bind CompareOperator.ofTag?) ops) (← exprs comparators)
      | _ => none
    | "Subscript" =>
      match ← nodeFields? ["value", "index"] content with
      | [value, index] => return .subscript (← expr value) (← expr index)
      | _ => none
    | "Dict" => return .dict (← all? (dictEntryOf? expr) content)
    | "List" => return .list (← exprs content)
    | "Tuple" => return .tuple (← exprs content)
    | "Other" =>
      match ← nodeFields? ["kind"] content with
      | [kind] => return .other (← kind.string?)
      | _ => none
    | _ => none

/-- The expression of a JSON value. -/
def Expr.ofJson? (json : Json) : Option Expr := exprWithin? (json.depth + 1) json

/-- A function, given how statements are read. -/
def functionDef? (decode : Json → Option Stmt) (json : Json) : Option FunctionDef := do
  match ← fields? ["name", "params", "body"] [] json with
  | [name, params, body] =>
    return .mk (← name.string?) (← all? Json.string? params) (← all? decode body)
  | _ => none

/-- The statement of a JSON value that nests less deep than a bound. -/
def stmtWithin? : Nat → Json → Option Stmt
  | 0, _ => none
  | depth + 1, json => do
    let stmt := stmtWithin? depth
    let (tag, content) ← tagged? json
    match tag with
    | "Assign" =>
      match ← nodeFields? ["targets", "value"] content with
      | [targets, value] => return .assign (← all? Expr.ofJson? targets) (← Expr.ofJson? value)
      | _ => none
    | "Expr" => return .expr (← Expr.ofJson? content)
    | "Return" => return .returns (← optional? Expr.ofJson? content)
    | "FunctionDef" => return .functionDef (← functionDef? stmt content)
    | "ForEach" =>
      match ← nodeFields? ["target", "iter", "body", "orelse"] content with
      | [target, iter, body, orelse] =>
        return .forEach (← Expr.ofJson? target) (← Expr.ofJson? iter) (← all? stmt body)
          (← all? stmt orelse)
      | _ => none
    | "If" =>
      match ← nodeFields? ["test", "body", "orelse"] content with
      | [test, body, orelse] =>
        return .ifElse (← Expr.ofJson? test) (← all? stmt body) (← all? stmt orelse)
      | _ => none
    | "While" =>
      match ← nodeFields? ["test", "body", "orelse"] content with
      | [test, body, orelse] =>
        return .whileLoop (← Expr.ofJson? test) (← all? stmt body) (← all? stmt orelse)
      | _ => none
    | "Other" =>
      match ← nodeFields? ["kind"] content with
      | [kind] => return .other (← kind.string?)
      | _ => none
    | _ => none

/-- The statement of a JSON value. -/
def Stmt.ofJson? (json : Json) : Option Stmt := stmtWithin? (json.depth + 1) json

/-- The function of a JSON value. -/
def FunctionDef.ofJson? (json : Json) : Option FunctionDef := functionDef? Stmt.ofJson? json

/-- The module of a JSON value. -/
def Module.ofJson? (json : Json) : Option Module := do
  match ← fields? ["body"] [] json with
  | [body] => return ⟨← all? Stmt.ofJson? body⟩
  | _ => none

end Respell.Syntax
