import Respell.Proofs.Parts
import Respell.Proofs.Reparsing

/-!
Comments do not change what is read, with one exception: where the first child of a node is taken for
its value, after a double star and after `return`, a comment that comes first is read in its place.
All other comments can be taken out of the trees of a source text, and the text is read as before.
-/

set_option autoImplicit false

namespace Respell.Source

/-- Trivia without its comments. -/
def uncomment (gap : List Trivia) : List Trivia := gap.filter (· != .comment)

/-- Trivia in front of a value without the comments that are passed over: one that comes first stays,
for it is read in the place of the value. -/
def uncommentAhead : List Trivia → List Trivia
  | .comment :: _ => [.comment]
  | leading => uncomment leading

/-- The kinds of trees that some places read in a way of their own. -/
inductive Role
  | comment
  | splat
  | yield
  | aliased
  | plain
  deriving DecidableEq

/-- What kind of tree a tree is. -/
def Tree.role : Tree → Role
  | .trivia .comment => .comment
  | .parenthesizedSplat => .splat
  | .yield => .yield
  | .aliased => .aliased
  | _ => .plain

def Argument.isComment : Argument → Bool
  | .positional value => value.role = .comment
  | _ => false

def Link.isComment : Link → Bool
  | .trivia kind => kind = .comment
  | _ => false

def Statement.isComment : Statement → Bool
  | .trivia kind => kind = .comment
  | _ => false

mutual

/-- A tree without the comments that are passed over. -/
def Tree.uncommented : Tree → Tree
  | .call func arguments => .call func.uncommented (Argument.listUncommented arguments)
  | .generatorCall func => .generatorCall func.uncommented
  | .attribute object attr => .attribute object.uncommented attr
  | .subscript value index more =>
    .subscript value.uncommented index.uncommented (Tree.eachUncommented more)
  | .binary left op right => .binary left.uncommented op right.uncommented
  | .boolean left op right => .boolean left.uncommented op right.uncommented
  | .comparison first links => .comparison first.uncommented (Link.listUncommented links)
  | .list children => .list (Tree.listUncommented children)
  | .tuple children => .tuple (Tree.listUncommented children)
  | .dictionary entries => .dictionary (Entry.listUncommented entries)
  | .parenthesized leading inner trailing =>
    .parenthesized (uncomment leading) inner.uncommented (uncomment trailing)
  | tree => tree

def Argument.uncommented : Argument → Argument
  | .positional value => .positional value.uncommented
  | .keyword name value => .keyword name value.uncommented
  | .spread leading value => .spread (uncommentAhead leading) value.uncommented

def Link.uncommented : Link → Link
  | .trivia kind => .trivia kind
  | .step op operand => .step op operand.uncommented

def Entry.uncommented : Entry → Entry
  | .pair key value => .pair key.uncommented value.uncommented
  | .spread leading value => .spread (uncommentAhead leading) value.uncommented

/-- Trees that are no children of a collection, each without its comments. -/
def Tree.eachUncommented : List Tree → List Tree
  | [] => []
  | tree :: rest => tree.uncommented :: Tree.eachUncommented rest

/-- The children of a collection that are no comments. -/
def Tree.listUncommented : List Tree → List Tree
  | [] => []
  | tree :: rest =>
    if tree.role = .comment then Tree.listUncommented rest
    else tree.uncommented :: Tree.listUncommented rest

def Argument.listUncommented : List Argument → List Argument
  | [] => []
  | argument :: rest =>
    if argument.isComment then Argument.listUncommented rest
    else argument.uncommented :: Argument.listUncommented rest

def Link.listUncommented : List Link → List Link
  | [] => []
  | link :: rest =>
    if link.isComment then Link.listUncommented rest
    else link.uncommented :: Link.listUncommented rest

def Entry.listUncommented : List Entry → List Entry
  | [] => []
  | entry :: rest => entry.uncommented :: Entry.listUncommented rest

end

mutual

/-- A statement without the comments that are passed over. The text of a definition and the names in
an import are written with the comments between them, and they are not read. -/
def Statement.uncommented : Statement → Statement
  | .expression value => .expression value.uncommented
  | .assignment first annotated more value =>
    .assignment first.uncommented annotated (Tree.eachUncommented more)
      (value.map Tree.uncommented)
  | .returns leading value => .returns (uncommentAhead leading) (value.map Tree.uncommented)
  | .definition _ defined => .definition "" defined.uncommented
  | .forEach isAsync target iter body orelse =>
    .forEach isAsync target.uncommented iter.uncommented (Statement.listUncommented body)
      (Statement.listUncommented orelse)
  | .ifElse test body alternative =>
    .ifElse test.uncommented (Statement.listUncommented body) alternative.uncommented
  | .whileLoop test body orelse =>
    .whileLoop test.uncommented (Statement.listUncommented body) (Statement.listUncommented orelse)
  | .imports _ => .imports []
  | .importsFrom _ _ => .importsFrom "" []
  | statement => statement

def Definition.uncommented : Definition → Definition
  | .function isAsync name parameters body =>
    .function isAsync name parameters (Statement.listUncommented body)
  | .klass name => .klass name

def Alternative.uncommented : Alternative → Alternative
  | .none => .none
  | .elseIf test body alternative =>
    .elseIf test.uncommented (Statement.listUncommented body) alternative.uncommented
  | .otherwise body => .otherwise (Statement.listUncommented body)

/-- The statements of a block that are no comments. -/
def Statement.listUncommented : List Statement → List Statement
  | [] => []
  | statement :: rest =>
    if statement.isComment then Statement.listUncommented rest
    else statement.uncommented :: Statement.listUncommented rest

end

/-! ### Expressions -/

open Respell.Syntax (BooleanOperator Expr)

theorem firstBut_uncomment (leading : List Trivia) (value : Except ReadError Expr) :
    firstBut (uncomment leading) value = firstBut leading value := by
  have same : (uncomment leading).contains .continuation = leading.contains .continuation := by
    rw [Bool.eq_iff_iff]
    simp [uncomment]
  rw [firstBut, same, firstBut]

theorem firstOf_uncommentAhead (leading : List Trivia) (value : Except ReadError Expr) :
    firstOf (uncommentAhead leading) value = firstOf leading value := by
  match leading with
  | [] => rfl
  | .comment :: _ => rfl
  | .continuation :: _ => rfl

theorem role_uncommented (tree : Tree) : tree.uncommented.role = tree.role := by
  cases tree with
  | trivia kind => cases kind <;> rfl
  | _ => rfl

theorem readChild_eq (tree : Tree) :
    readChild tree = match tree.role with
      | .comment => .ok []
      | .splat => .ok [.other "parenthesized_list_splat"]
      | _ => return [← readExpr tree] := by
  cases tree with
  | trivia kind => cases kind <;> rfl
  | _ => rfl

theorem readArgument_positional (tree : Tree) :
    readArgument (.positional tree) = match tree.role with
      | .comment => .ok ([], [])
      | .splat => .ok ([.other "Starred"], [])
      | _ => return ([← readExpr tree], []) := by
  cases tree with
  | trivia kind => cases kind <;> rfl
  | _ => rfl

theorem readValue_eq (tree : Tree) :
    readValue tree = if tree.role = .yield then .ok (.other "Yield") else readExpr tree := by
  cases tree with
  | trivia kind => cases kind <;> rfl
  | _ => rfl

theorem readExpression_eq (tree : Tree) :
    readExpression tree =
      if tree.role = .aliased then .ok (.other "as_pattern") else return .expr (← readValue tree) := by
  cases tree with
  | trivia kind => cases kind <;> rfl
  | _ => rfl

theorem runOf_uncommented (op : BooleanOperator) (tree : Tree) (value : Expr) :
    runOf op tree.uncommented value = runOf op tree value := by
  cases tree with
  | boolean left op' right => cases value <;> rfl
  | _ => rfl

theorem readValue_uncommented {tree : Tree} (same : readExpr tree.uncommented = readExpr tree) :
    readValue tree.uncommented = readValue tree := by
  rw [readValue_eq, role_uncommented, same, readValue_eq]

theorem readArgument_comment {argument : Argument} (comment : argument.isComment = true) :
    readArgument argument = .ok ([], []) := by
  cases argument with
  | positional tree => rw [readArgument_positional, of_decide_eq_true comment]
  | keyword name tree => cases comment
  | spread leading tree => cases comment

theorem readLink_comment {link : Link} (comment : link.isComment = true) :
    readLink link = .ok ([], []) := by
  cases link with
  | trivia kind =>
      obtain rfl := of_decide_eq_true comment
      rfl
  | step op tree => cases comment

mutual

theorem readExpr_uncommented (tree : Tree) : readExpr tree.uncommented = readExpr tree := by
  match tree with
  | .trivia _ | .name _ | .integer _ | .float _ | .strings _ _ | .true | .false | .none | .ellipsis
  | .parenthesizedSplat | .starred | .yield | .aliased | .other _ => rfl
  | .call func arguments =>
      rw [Tree.uncommented, readExpr, readExpr_uncommented func,
        readArguments_uncommented arguments, readExpr]
  | .generatorCall func => rw [Tree.uncommented, readExpr, readExpr_uncommented func, readExpr]
  | .attribute object attr =>
      rw [Tree.uncommented, readExpr, readExpr_uncommented object, readExpr]
  | .subscript value index more =>
      rw [Tree.uncommented, readExpr, readExpr_uncommented value, readExpr_uncommented index,
        readExprs_uncommented more, readExpr]
  | .binary left op right =>
      rw [Tree.uncommented, readExpr, readExpr_uncommented left, readExpr_uncommented right,
        readExpr]
  | .boolean left op right =>
      -- What a left side adds to a run depends on its kind, which stays.
      have run : readRun op left.uncommented = readRun op left := by
        rw [readRun_eq, readRun_eq, readExpr_uncommented left]
        simp only [runOf_uncommented]
      rw [Tree.uncommented, readExpr, run, readExpr_uncommented right, readExpr]
  | .comparison first links =>
      rw [Tree.uncommented, readExpr, readExpr_uncommented first, readLinks_uncommented links,
        readExpr]
  | .list children => rw [Tree.uncommented, readExpr, readChildren_uncommented children, readExpr]
  | .tuple children => rw [Tree.uncommented, readExpr, readChildren_uncommented children, readExpr]
  | .dictionary entries =>
      rw [Tree.uncommented, readExpr, readEntries_uncommented entries, readExpr]
  | .parenthesized leading inner trailing =>
      rw [Tree.uncommented, readExpr_parenthesized, firstBut_uncomment,
        readValue_uncommented (readExpr_uncommented inner), readExpr_parenthesized]
termination_by structural tree

theorem readExprs_uncommented (trees : List Tree) :
    readExprs (Tree.eachUncommented trees) = readExprs trees := by
  match trees with
  | [] => rfl
  | tree :: rest =>
      rw [Tree.eachUncommented, readExprs, readExpr_uncommented tree, readExprs_uncommented rest,
        readExprs]
termination_by structural trees

theorem readChildren_uncommented (trees : List Tree) :
    readChildren (Tree.listUncommented trees) = readChildren trees := by
  match trees with
  | [] => rfl
  | tree :: rest =>
      rw [Tree.listUncommented, readChildren_cons tree rest, readChild_eq tree]
      by_cases comment : tree.role = .comment
      · rw [if_pos comment, readChildren_uncommented rest, comment]
        exact (bind_pure _).symm
      · rw [if_neg comment, readChildren_cons, readChild_eq, role_uncommented,
          readExpr_uncommented tree, readChildren_uncommented rest]
termination_by structural trees

theorem readArgument_uncommented (argument : Argument) :
    readArgument argument.uncommented = readArgument argument := by
  match argument with
  | .positional tree =>
      rw [Argument.uncommented, readArgument_positional, role_uncommented,
        readExpr_uncommented tree, readArgument_positional]
  | .keyword name tree =>
      rw [Argument.uncommented, readArgument, readExpr_uncommented tree, readArgument]
  | .spread leading tree =>
      rw [Argument.uncommented, readArgument, firstOf_uncommentAhead, readExpr_uncommented tree,
        readArgument]
termination_by structural argument

theorem readArguments_uncommented (arguments : List Argument) :
    readArguments (Argument.listUncommented arguments) = readArguments arguments := by
  match arguments with
  | [] => rfl
  | argument :: rest =>
      rw [Argument.listUncommented, readArguments_cons argument rest]
      by_cases comment : argument.isComment
      · rw [if_pos comment, readArguments_uncommented rest, readArgument_comment comment]
        exact (bind_pure _).symm
      · rw [if_neg comment, readArguments_cons, readArgument_uncommented argument,
          readArguments_uncommented rest]
termination_by structural arguments

theorem readLink_uncommented (link : Link) : readLink link.uncommented = readLink link := by
  match link with
  | .trivia _ => rfl
  | .step op tree => rw [Link.uncommented, readLink, readExpr_uncommented tree, readLink]
termination_by structural link

theorem readLinks_uncommented (links : List Link) :
    readLinks (Link.listUncommented links) = readLinks links := by
  match links with
  | [] => rfl
  | link :: rest =>
      rw [Link.listUncommented, readLinks_cons link rest]
      by_cases comment : link.isComment
      · rw [if_pos comment, readLinks_uncommented rest, readLink_comment comment]
        exact (bind_pure _).symm
      · rw [if_neg comment, readLinks_cons, readLink_uncommented link, readLinks_uncommented rest]
termination_by structural links

theorem readEntry_uncommented (entry : Entry) : readEntry entry.uncommented = readEntry entry := by
  match entry with
  | .pair key value =>
      rw [Entry.uncommented, readEntry, readExpr_uncommented key, readExpr_uncommented value,
        readEntry]
  | .spread leading tree =>
      rw [Entry.uncommented, readEntry, firstOf_uncommentAhead, readExpr_uncommented tree, readEntry]
termination_by structural entry

theorem readEntries_uncommented (entries : List Entry) :
    readEntries (Entry.listUncommented entries) = readEntries entries := by
  match entries with
  | [] => rfl
  | entry :: rest =>
      rw [Entry.listUncommented, readEntries_cons, readEntry_uncommented entry,
        readEntries_uncommented rest, readEntries_cons]
termination_by structural entries

end

/-! ### Statements -/

theorem readStmt_comment {statement : Statement} (comment : statement.isComment = true) :
    readStmt statement = .ok none := by
  cases statement with
  | trivia kind =>
      obtain rfl := of_decide_eq_true comment
      rfl
  | _ => cases comment

mutual

theorem readStmt_uncommented (statement : Statement) :
    readStmt statement.uncommented = readStmt statement := by
  match statement with
  | .trivia _ | .imports _ | .importsFrom _ _ | .other _ => rfl
  | .expression value =>
      rw [Statement.uncommented, readStmt_expression, readStmt_expression, readExpression_eq,
        role_uncommented, readValue_uncommented (readExpr_uncommented value), readExpression_eq]
  | .assignment first annotated more value =>
      rw [Statement.uncommented, readStmt, readExpr_uncommented first, readExprs_uncommented more,
        readStmt]
      cases value with
      | none => rfl
      | some value =>
          rw [Option.map_some]
          simp only [readValue_uncommented (readExpr_uncommented value)]
  | .returns leading none => rfl
  | .returns leading (some value) =>
      rw [Statement.uncommented, Option.map_some, readStmt, firstOf_uncommentAhead,
        readExpr_uncommented value, readStmt]
  | .definition text defined =>
      rw [Statement.uncommented, readStmt, readDefinition_uncommented defined, readStmt]
  | .forEach isAsync target iter body orelse =>
      rw [Statement.uncommented, readStmt, readExpr_uncommented target, readExpr_uncommented iter,
        readStmts_uncommented body, readStmts_uncommented orelse, readStmt]
  | .ifElse test body alternative =>
      rw [Statement.uncommented, readStmt, readExpr_uncommented test, readStmts_uncommented body,
        readAlternative_uncommented alternative, readStmt]
  | .whileLoop test body orelse =>
      rw [Statement.uncommented, readStmt, readExpr_uncommented test, readStmts_uncommented body,
        readStmts_uncommented orelse, readStmt]
termination_by structural statement

theorem readDefinition_uncommented (definition : Definition) :
    readDefinition definition.uncommented = readDefinition definition := by
  match definition with
  | .function isAsync name parameters body =>
      rw [Definition.uncommented, readDefinition, readStmts_uncommented body, readDefinition]
  | .klass name => rfl
termination_by structural definition

theorem readAlternative_uncommented (alternative : Alternative) :
    readAlternative alternative.uncommented = readAlternative alternative := by
  match alternative with
  | .none => rfl
  | .elseIf test body alternative =>
      rw [Alternative.uncommented, readAlternative, readExpr_uncommented test,
        readStmts_uncommented body, readAlternative_uncommented alternative, readAlternative]
  | .otherwise body =>
      rw [Alternative.uncommented, readAlternative, readStmts_uncommented body, readAlternative]
termination_by structural alternative

theorem readStmts_uncommented (statements : List Statement) :
    readStmts (Statement.listUncommented statements) = readStmts statements := by
  match statements with
  | [] => rfl
  | statement :: rest =>
      rw [Statement.listUncommented, readStmts]
      by_cases comment : statement.isComment
      · rw [if_pos comment, readStmts_uncommented rest, readStmt_comment comment]
        exact (bind_pure _).symm
      · rw [if_neg comment, readStmts, readStmt_uncommented statement, readStmts_uncommented rest]
termination_by structural statements

end

/-- Two well-formed texts whose trees differ only in comments that are passed over are read alike:
either as the same module or with the same error. -/
theorem read_eq_of_uncommented_eq {source source' : String} {statements statements' : List Statement}
    (parsed : parse? source = some statements) (parsed' : parse? source' = some statements')
    (same : Statement.listUncommented statements = Statement.listUncommented statements') :
    read source = read source' := by
  rw [read_eq_readStmts parsed, read_eq_readStmts parsed', ← readStmts_uncommented statements, same,
    readStmts_uncommented]

/-- A comment in a line of its own, and one after an argument. -/
theorem read_eq_of_uncommented_eq_call :
    parse? "#\nf(a #\n)" = some [.trivia .comment, .expression (.call (.name "f")
        [.positional (.name "a"), .positional (.trivia .comment)])] ∧
      parse? "f(a)" = some [.expression (.call (.name "f") [.positional (.name "a")])] ∧
      read "#\nf(a #\n)" = read "f(a)" := by
  have commented : parse? "#\nf(a #\n)" = some [.trivia .comment, .expression (.call (.name "f")
      [.positional (.name "a"), .positional (.trivia .comment)])] := by cbv
  have plain : parse? "f(a)" = some [.expression (.call (.name "f") [.positional (.name "a")])] := by
    cbv
  exact ⟨commented, plain, read_eq_of_uncommented_eq commented plain rfl⟩

/-- A comment between a double star and its value is read as the value. -/
theorem read_comment_spread :
    parse? "f(**#\na)" =
        some [.expression (.call (.name "f") [.spread [.comment] (.name "a")])] ∧
      parse? "f(**a)" = some [.expression (.call (.name "f") [.spread [] (.name "a")])] ∧
      read "f(**#\na)" = .ok ⟨[.expr (.call (.name "f") [] [.spread (.other "comment")])]⟩ ∧
      read "f(**a)" = .ok ⟨[.expr (.call (.name "f") [] [.spread (.name "a")])]⟩ := by
  have commented : parse? "f(**#\na)" =
      some [.expression (.call (.name "f") [.spread [.comment] (.name "a")])] := by cbv
  have plain : parse? "f(**a)" =
      some [.expression (.call (.name "f") [.spread [] (.name "a")])] := by cbv
  refine ⟨commented, plain, ?_, ?_⟩
  · rw [read_eq_readStmts commented]
    cbv
  · rw [read_eq_readStmts plain]
    cbv

end Respell.Source
