import Respell.Source.Reading

/-!
The parts of a concrete tree, in the order in which their readings end, so that a tree comes after
what stands inside it. Some parts are never read: trivia stands in front of them and is
taken for them, or they stand in a construct that is kept by its name alone. They are listed on
demand. Lists are read one by one, each element on its own.
-/

set_option autoImplicit false

namespace Respell.Source

open Respell.Syntax (DictEntry Expr Keyword Stmt)

/-- A tree or a statement inside another one. -/
inductive Part
  | tree (tree : Tree)
  | statement (statement : Statement)

/-- Which parts are listed. -/
inductive Extent
  /-- All of them. -/
  | whole
  /-- Those that are read. -/
  | visible

/-- Parts that may be covered by something else; then they are not visible. -/
def Extent.under (covered : Bool) (parts : List Part) : Extent → List Part
  | whole => parts
  | visible => if covered then [] else parts

mutual

/-- The parts of a tree, itself last. -/
def Tree.parts (extent : Extent) : Tree → List Part
  | .call func arguments =>
    func.parts extent ++ Argument.listParts extent arguments ++ [.tree (.call func arguments)]
  | .generatorCall func => func.parts extent ++ [.tree (.generatorCall func)]
  | .attribute object attr => object.parts extent ++ [.tree (.attribute object attr)]
  | .subscript value index more =>
    value.parts extent ++ index.parts extent ++ Tree.listParts extent more ++
      [.tree (.subscript value index more)]
  | .binary left op right =>
    left.parts extent ++ right.parts extent ++ [.tree (.binary left op right)]
  | .boolean left op right =>
    left.parts extent ++ right.parts extent ++ [.tree (.boolean left op right)]
  | .comparison first links =>
    first.parts extent ++ Link.listParts extent links ++ [.tree (.comparison first links)]
  | .list children => Tree.listParts extent children ++ [.tree (.list children)]
  | .tuple children => Tree.listParts extent children ++ [.tree (.tuple children)]
  | .dictionary entries => Entry.listParts extent entries ++ [.tree (.dictionary entries)]
  | .parenthesized leading inner trailing =>
    extent.under (leading.contains .continuation) (inner.parts extent) ++
      [.tree (.parenthesized leading inner trailing)]
  | tree => [.tree tree]

def Argument.parts (extent : Extent) : Argument → List Part
  | .positional value => value.parts extent
  | .keyword _ value => value.parts extent
  | .spread leading value => extent.under (!leading.isEmpty) (value.parts extent)

def Link.parts (extent : Extent) : Link → List Part
  | .trivia _ => []
  | .step _ operand => operand.parts extent

def Entry.parts (extent : Extent) : Entry → List Part
  | .pair key value => key.parts extent ++ value.parts extent
  | .spread leading value => extent.under (!leading.isEmpty) (value.parts extent)

def Tree.listParts (extent : Extent) : List Tree → List Part
  | [] => []
  | tree :: rest => tree.parts extent ++ Tree.listParts extent rest

def Argument.listParts (extent : Extent) : List Argument → List Part
  | [] => []
  | argument :: rest => argument.parts extent ++ Argument.listParts extent rest

def Link.listParts (extent : Extent) : List Link → List Part
  | [] => []
  | link :: rest => link.parts extent ++ Link.listParts extent rest

def Entry.listParts (extent : Extent) : List Entry → List Part
  | [] => []
  | entry :: rest => entry.parts extent ++ Entry.listParts extent rest

end

mutual

/-- The parts of a statement, itself last. -/
def Statement.parts (extent : Extent) : Statement → List Part
  | .expression value => value.parts extent ++ [.statement (.expression value)]
  | .assignment first annotated more value =>
    extent.under annotated (first.parts extent ++ Tree.listParts extent more ++
      Tree.listParts extent value.toList) ++ [.statement (.assignment first annotated more value)]
  | .returns leading value =>
    extent.under (!leading.isEmpty) (Tree.listParts extent value.toList) ++
      [.statement (.returns leading value)]
  | .definition text defined => defined.parts extent ++ [.statement (.definition text defined)]
  | .forEach isAsync target iter body orelse =>
    extent.under isAsync (target.parts extent ++ iter.parts extent ++
      Statement.listParts extent body ++ Statement.listParts extent orelse) ++
      [.statement (.forEach isAsync target iter body orelse)]
  | .ifElse test body alternative =>
    test.parts extent ++ Statement.listParts extent body ++ alternative.parts extent ++
      [.statement (.ifElse test body alternative)]
  | .whileLoop test body orelse =>
    test.parts extent ++ Statement.listParts extent body ++ Statement.listParts extent orelse ++
      [.statement (.whileLoop test body orelse)]
  | statement => [.statement statement]

def Definition.parts (extent : Extent) : Definition → List Part
  | .function isAsync _ _ body => extent.under isAsync (Statement.listParts extent body)
  | .klass _ => []

def Alternative.parts (extent : Extent) : Alternative → List Part
  | .none => []
  | .elseIf test body alternative =>
    test.parts extent ++ Statement.listParts extent body ++ alternative.parts extent
  | .otherwise body => Statement.listParts extent body

def Statement.listParts (extent : Extent) : List Statement → List Part
  | [] => []
  | statement :: rest => statement.parts extent ++ Statement.listParts extent rest

end

/-- What lists the parts of one after the other lists those of each. -/
theorem eq_flatMap {α β : Type} {parts : α → List β} {listParts : List α → List β}
    (nil : listParts [] = [])
    (cons : ∀ one rest, listParts (one :: rest) = parts one ++ listParts rest) (list : List α) :
    listParts list = list.flatMap parts := by
  induction list with
  | nil => exact nil
  | cons one rest ih => rw [cons, ih, List.flatMap_cons]

theorem Tree.listParts_eq (extent : Extent) (trees : List Tree) :
    Tree.listParts extent trees = trees.flatMap (Tree.parts extent) :=
  eq_flatMap rfl (fun _ _ => rfl) trees

theorem Argument.listParts_eq (extent : Extent) (arguments : List Argument) :
    Argument.listParts extent arguments = arguments.flatMap (Argument.parts extent) :=
  eq_flatMap rfl (fun _ _ => rfl) arguments

theorem Link.listParts_eq (extent : Extent) (links : List Link) :
    Link.listParts extent links = links.flatMap (Link.parts extent) :=
  eq_flatMap rfl (fun _ _ => rfl) links

theorem Entry.listParts_eq (extent : Extent) (entries : List Entry) :
    Entry.listParts extent entries = entries.flatMap (Entry.parts extent) :=
  eq_flatMap rfl (fun _ _ => rfl) entries

theorem Statement.listParts_eq (extent : Extent) (statements : List Statement) :
    Statement.listParts extent statements = statements.flatMap (Statement.parts extent) :=
  eq_flatMap rfl (fun _ _ => rfl) statements

/-! ### Reading one by one -/

/-- What a child of a collection is read into: nothing for a comment. -/
def readChild : Tree → Except ReadError (List Expr)
  | .trivia .comment => .ok []
  | .parenthesizedSplat => .ok [.other "parenthesized_list_splat"]
  | tree => return [← readExpr tree]

/-- The positional and named arguments that one argument gives: none for a comment. -/
def readArgument : Argument → Except ReadError (List Expr × List Keyword)
  | .positional (.trivia .comment) => .ok ([], [])
  | .positional .parenthesizedSplat => .ok ([.other "Starred"], [])
  | .positional tree => return ([← readExpr tree], [])
  | .keyword name tree => return ([], [.named name (← readExpr tree)])
  | .spread leading tree => return ([], [.spread (← firstOf leading (readExpr tree))])

/-- The operators and operands that a link of a comparison gives: none for a comment. -/
def readLink : Link → Except ReadError (List Syntax.CompareOperator × List Expr)
  | .trivia .comment => .ok ([], [])
  | .trivia kind => .ok ([], [.other kind.kindName])
  | .step op tree => return ([op], [← readExpr tree])

/-- The entry of a dictionary. -/
def readEntry : Entry → Except ReadError DictEntry
  | .pair key value => return .keyed (← readExpr key) (← readExpr value)
  | .spread leading tree => return .spread (← firstOf leading (readExpr tree))

theorem readChildren_cons (tree : Tree) (rest : List Tree) :
    readChildren (tree :: rest) = do
      let first ← readChild tree
      let more ← readChildren rest
      return first ++ more := by
  unfold readChild
  split
  · rw [readChildren]
    exact (bind_pure _).symm
  · rw [readChildren]
    rfl
  · rw [readChildren]
    · simp
    · assumption
    · assumption

theorem readArguments_cons (argument : Argument) (rest : List Argument) :
    readArguments (argument :: rest) = do
      let (args, keywords) ← readArgument argument
      let (args', keywords') ← readArguments rest
      return (args ++ args', keywords ++ keywords') := by
  unfold readArgument
  split
  · rw [readArguments]
    exact (bind_pure _).symm
  · rw [readArguments]
    rfl
  · rw [readArguments]
    · simp
    · assumption
    · assumption
  · rw [readArguments]
    simp
  · rw [readArguments]
    simp

theorem readLinks_cons (link : Link) (rest : List Link) :
    readLinks (link :: rest) = do
      let (ops, operands) ← readLink link
      let (ops', operands') ← readLinks rest
      return (ops ++ ops', operands ++ operands') := by
  unfold readLink
  split
  · rw [readLinks]
    exact (bind_pure _).symm
  · rw [readLinks]
    · rfl
    · assumption
  · rw [readLinks]
    simp

theorem readEntries_cons (entry : Entry) (rest : List Entry) :
    readEntries (entry :: rest) = do
      let first ← readEntry entry
      let more ← readEntries rest
      return first :: more := by
  cases entry with
  | pair key value =>
      rw [readEntries, readEntry]
      simp
  | spread leading tree =>
      rw [readEntries, readEntry]
      simp

/-- The values that a left side adds to a run of a boolean operator. -/
def runOf (op : Syntax.BooleanOperator) (tree : Tree) (value : Expr) : List Expr :=
  match tree, value with
  | .boolean _ _ _, .booleanOp op' values => if op' = op then values else [value]
  | _, _ => [value]

theorem readRun_eq (op : Syntax.BooleanOperator) (tree : Tree) :
    readRun op tree = do
      let value ← readExpr tree
      return runOf op tree value := by
  unfold readRun
  split
  next left op' right =>
    rw [readExpr]
    simp [runOf]
  next single =>
    congr 1
    funext value
    unfold runOf
    split
    · exact absurd rfl (single _ _ _)
    · rfl

theorem readExpr_parenthesized (leading : List Trivia) (inner : Tree) (trailing : List Trivia) :
    readExpr (.parenthesized leading inner trailing) = firstBut leading (readValue inner) := by
  unfold readExpr readValue
  rfl

/-- An expression as a statement: an alias is no value. -/
def readExpression : Tree → Except ReadError Stmt
  | .aliased => .ok (.other "as_pattern")
  | tree => return .expr (← readValue tree)

theorem readStmt_expression (tree : Tree) :
    readStmt (.expression tree) = do
      let stmt ← readExpression tree
      return some stmt := by
  unfold readExpression
  split
  · rw [readStmt]
    rfl
  · rw [readStmt]
    · simp
    · assumption

end Respell.Source
