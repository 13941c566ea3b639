import Respell.Proofs.WellFormed

/-!
Source texts that are well formed and cannot be read. There are two faults: a line continuation inside
a comparison counts as an operand of it, and a chain of assignments may end in a type without a value.
A text is read if no part that is read has a fault, and otherwise its first fault is the error.
-/

set_option autoImplicit false

namespace Respell.Source

open Respell.Syntax (CompareOperator DictEntry Expr Keyword Stmt)

/-- Why a part cannot be read: a comparison goes on in another line, or a chain of assignments whose
first target has no type ends without a value. -/
def Part.fault? : Part → Option ReadError
  | .tree (.comparison _ links) =>
    if links.any Link.isContinuation then some unpairedComparison else none
  | .statement (.assignment _ false (_ :: _) none) => some valuelessAssignment
  | _ => none

/-- A reading fails with the first fault of parts, or gives something if they have none. -/
def Settles {α : Type} (parts : List Part) (result : Except ReadError α) : Prop :=
  match parts.findSome? Part.fault? with
  | none => ∃ value, result = .ok value
  | some fault => result = .error fault

namespace Settles

variable {α β : Type} {front back : List Part}

theorem nothing (value : α) : Settles [] (.ok value) := ⟨value, rfl⟩

theorem quiet {part : Part} (sound : part.fault? = none) (value : α) :
    Settles [part] (.ok value) := by
  simp only [Settles, List.findSome?_cons, sound, List.findSome?_nil]
  exact ⟨value, rfl⟩

/-- What is read first decides first. -/
theorem bind {first : Except ReadError α} {next : α → Except ReadError β}
    (one : Settles front first)
    (other : ∀ value, first = .ok value → Settles back (next value)) :
    Settles (front ++ back) (first >>= next) := by
  unfold Settles at one ⊢
  rw [List.findSome?_append]
  cases found : front.findSome? Part.fault? with
  | some fault =>
      rw [found] at one
      rw [Option.some_or, one]
      rfl
  | none =>
      rw [found] at one
      obtain ⟨value, rfl⟩ := one
      exact other value rfl

theorem map {first : Except ReadError α} (settles : Settles front first) (f : α → β) :
    Settles front (do return f (← first)) := by
  have done : Settles (front ++ []) (do return f (← first)) :=
    settles.bind fun value _ => nothing (f value)
  rwa [List.append_nil] at done

theorem append_quiet {part : Part} {result : Except ReadError α} (settles : Settles front result)
    (sound : part.fault? = none) : Settles (front ++ [part]) result := by
  unfold Settles at settles ⊢
  rwa [List.findSome?_append, List.findSome?_cons, sound, List.findSome?_nil, Option.or_none]

end Settles

/-! ### Expressions -/

theorem settles_firstOf {leading : List Trivia} {parts : List Part} {read : Except ReadError Expr}
    (settles : Settles parts read) :
    Settles (Extent.visible.under (!leading.isEmpty) parts) (firstOf leading read) := by
  cases leading with
  | nil => exact settles
  | cons kind rest => exact .nothing _

theorem settles_firstBut {leading : List Trivia} {parts : List Part} {read : Except ReadError Expr}
    (settles : Settles parts read) :
    Settles (Extent.visible.under (leading.contains .continuation) parts)
      (firstBut leading read) := by
  unfold firstBut Extent.under
  cases leading.contains .continuation with
  | true => exact .nothing _
  | false => exact settles

theorem settles_readValue {tree : Tree} (settles : Settles (tree.parts .visible) (readExpr tree)) :
    Settles (tree.parts .visible) (readValue tree) := by
  unfold readValue
  split
  · exact .quiet rfl _
  · exact settles

theorem settles_readChild {tree : Tree} (settles : Settles (tree.parts .visible) (readExpr tree)) :
    Settles (tree.parts .visible) (readChild tree) := by
  unfold readChild
  split
  · exact .quiet rfl _
  · exact .quiet rfl _
  · exact settles.map _

theorem settles_positional {tree : Tree} (settles : Settles (tree.parts .visible) (readExpr tree)) :
    Settles (tree.parts .visible) (readArgument (.positional tree)) := by
  unfold readArgument
  split
  next same =>
    cases same
    exact .quiet rfl _
  next same =>
    cases same
    exact .quiet rfl _
  next same =>
    obtain ⟨rfl⟩ := Argument.positional.inj same
    exact settles.map _
  next same => cases same
  next same => cases same

/-- A comparison pairs up unless a line continuation stands among its operands. -/
theorem settles_comparison {first : Tree} {links : List Link} (left : Expr)
    {read : List CompareOperator × List Expr} (ran : readLinks links = .ok read) :
    Settles [.tree (.comparison first links)]
      (if read.2.length == read.1.length then .ok (Expr.compare left read.1 read.2)
        else .error unpairedComparison) := by
  obtain ⟨ops, operands⟩ := read
  have paired : (operands.length == ops.length) = !links.any Link.isContinuation := by
    rw [(length_readLinks ran).2, Bool.eq_iff_iff]
    simp [List.countP_eq_zero]
  dsimp only
  rw [paired]
  simp only [Settles, List.findSome?_cons, List.findSome?_nil, Part.fault?]
  cases links.any Link.isContinuation with
  | true => rfl
  | false => exact ⟨_, rfl⟩

-- By recursion on the tree. Parts are listed in the order of reading, so each part that is read adds
-- its own parts on the right, and the tree itself comes last.
mutual

theorem settles_readExpr (tree : Tree) : Settles (tree.parts .visible) (readExpr tree) := by
  match tree with
  | .trivia _ | .name _ | .integer _ | .float _ | .strings _ _ | .true | .false | .none | .ellipsis
  | .parenthesizedSplat | .starred | .yield | .aliased | .other _ =>
      rw [readExpr]
      exact .quiet rfl _
  | .call func arguments =>
      rw [readExpr, Tree.parts, List.append_assoc]
      exact (settles_readExpr func).bind fun _ _ => (settles_readArguments arguments).bind
        fun _ _ => .quiet rfl _
  | .generatorCall func =>
      rw [readExpr, Tree.parts]
      exact (settles_readExpr func).bind fun _ _ => .quiet rfl _
  | .attribute object attr =>
      rw [readExpr, Tree.parts]
      exact (settles_readExpr object).bind fun _ _ => .quiet rfl _
  | .subscript value index more =>
      rw [readExpr, Tree.parts, List.append_assoc, List.append_assoc]
      exact (settles_readExpr value).bind fun _ _ => (settles_readExpr index).bind
        fun _ _ => (settles_readExprs more).bind fun _ _ => .quiet rfl _
  | .binary left op right =>
      rw [readExpr, Tree.parts, List.append_assoc]
      exact (settles_readExpr left).bind fun _ _ => (settles_readExpr right).bind
        fun _ _ => .quiet rfl _
  | .boolean left op right =>
      rw [readExpr, readRun_eq, Tree.parts, List.append_assoc]
      exact ((settles_readExpr left).map _).bind fun _ _ => (settles_readExpr right).bind
        fun _ _ => .quiet rfl _
  | .comparison first links =>
      rw [readExpr, Tree.parts, List.append_assoc]
      exact (settles_readExpr first).bind fun left _ => (settles_readLinks links).bind
        fun _ ran => settles_comparison left ran
  | .list children =>
      rw [readExpr, Tree.parts]
      exact (settles_readChildren children).bind fun _ _ => .quiet rfl _
  | .tuple children =>
      rw [readExpr, Tree.parts]
      exact (settles_readChildren children).bind fun _ _ => .quiet rfl _
  | .dictionary entries =>
      rw [readExpr, Tree.parts]
      exact (settles_readEntries entries).bind fun _ _ => .quiet rfl _
  | .parenthesized leading inner trailing =>
      rw [Tree.parts, readExpr_parenthesized]
      exact (settles_firstBut (settles_readValue (settles_readExpr inner))).append_quiet rfl
termination_by structural tree

theorem settles_readExprs (trees : List Tree) :
    Settles (Tree.listParts .visible trees) (readExprs trees) := by
  match trees with
  | [] =>
      rw [readExprs]
      exact .nothing _
  | tree :: rest =>
      rw [readExprs, Tree.listParts]
      exact (settles_readExpr tree).bind fun _ _ => (settles_readExprs rest).map _
termination_by structural trees

theorem settles_readChildren (trees : List Tree) :
    Settles (Tree.listParts .visible trees) (readChildren trees) := by
  match trees with
  | [] =>
      rw [readChildren]
      exact .nothing _
  | tree :: rest =>
      rw [readChildren_cons, Tree.listParts]
      exact (settles_readChild (settles_readExpr tree)).bind fun _ _ =>
        (settles_readChildren rest).map _
termination_by structural trees

theorem settles_readArgument (argument : Argument) :
    Settles (argument.parts .visible) (readArgument argument) := by
  match argument with
  | .positional tree => exact settles_positional (settles_readExpr tree)
  | .keyword name tree => exact (settles_readExpr tree).map _
  | .spread leading tree => exact (settles_firstOf (settles_readExpr tree)).map _
termination_by structural argument

theorem settles_readArguments (arguments : List Argument) :
    Settles (Argument.listParts .visible arguments) (readArguments arguments) := by
  match arguments with
  | [] =>
      rw [readArguments]
      exact .nothing _
  | argument :: rest =>
      rw [readArguments_cons, Argument.listParts]
      exact (settles_readArgument argument).bind fun _ _ => (settles_readArguments rest).map _
termination_by structural arguments

theorem settles_readLink (link : Link) : Settles (link.parts .visible) (readLink link) := by
  match link with
  | .trivia .comment | .trivia .continuation => exact .nothing _
  | .step op tree => exact (settles_readExpr tree).map _
termination_by structural link

theorem settles_readLinks (links : List Link) :
    Settles (Link.listParts .visible links) (readLinks links) := by
  match links with
  | [] =>
      rw [readLinks]
      exact .nothing _
  | link :: rest =>
      rw [readLinks_cons, Link.listParts]
      exact (settles_readLink link).bind fun _ _ => (settles_readLinks rest).map _
termination_by structural links

theorem settles_readEntry (entry : Entry) : Settles (entry.parts .visible) (readEntry entry) := by
  match entry with
  | .pair key value => exact (settles_readExpr key).bind fun _ _ => (settles_readExpr value).map _
  | .spread leading tree => exact (settles_firstOf (settles_readExpr tree)).map _
termination_by structural entry

theorem settles_readEntries (entries : List Entry) :
    Settles (Entry.listParts .visible entries) (readEntries entries) := by
  match entries with
  | [] =>
      rw [readEntries]
      exact .nothing _
  | entry :: rest =>
      rw [readEntries_cons, Entry.listParts]
      exact (settles_readEntry entry).bind fun _ _ => (settles_readEntries rest).map _
termination_by structural entries

end

/-! ### Statements -/

theorem settles_readExpression (tree : Tree) :
    Settles (tree.parts .visible) (readExpression tree) := by
  unfold readExpression
  split
  · exact .quiet rfl _
  · exact (settles_readValue (settles_readExpr tree)).map _

/-- A chain of assignments is read unless it ends without a value. -/
theorem settles_assignment {first : Tree} {annotated : Bool} {more : List Tree} {value : Option Tree}
    (sound : (Statement.assignment first annotated more value).Sound) :
    Settles ((Statement.assignment first annotated more value).parts .visible)
      (readStmt (.assignment first annotated more value)) := by
  rw [Statement.parts, readStmt]
  cases annotated with
  | true => exact .quiet rfl _
  | false =>
      simp only [Extent.under, Bool.false_eq_true, if_false, List.append_assoc]
      refine (settles_readExpr first).bind fun _ _ => (settles_readExprs more).bind fun _ _ => ?_
      cases value with
      | some tree =>
          simp only [Option.toList, Tree.listParts, List.append_nil]
          exact (settles_readValue (settles_readExpr tree)).bind fun _ _ => .quiet (by cases more <;> rfl) _
      | none =>
          have more_than_one : more ≠ [] :=
            ((Statement.sound_assignment.1 sound).last rfl).resolve_left Bool.false_ne_true
          obtain ⟨second, rest, rfl⟩ := List.exists_cons_of_ne_nil more_than_one
          rfl

mutual

theorem settles_readStmt (statement : Statement) (sound : statement.Sound) :
    Settles (statement.parts .visible) (readStmt statement) := by
  match statement with
  | .trivia .comment | .trivia .continuation => exact .quiet rfl _
  | .imports _ | .importsFrom _ _ | .other _ =>
      rw [readStmt]
      exact .quiet rfl _
  | .expression tree =>
      rw [readStmt_expression, Statement.parts]
      exact (settles_readExpression tree).bind fun _ _ => .quiet rfl _
  | .assignment first annotated more value => exact settles_assignment sound
  | .returns leading none =>
      rw [readStmt]
      cases leading <;> exact .quiet rfl _
  | .returns leading (some tree) =>
      rw [readStmt, Statement.parts, Option.toList, Tree.listParts, Tree.listParts,
        List.append_nil]
      exact (settles_firstOf (settles_readExpr tree)).bind fun _ _ => .quiet rfl _
  | .definition text defined =>
      rw [readStmt, Statement.parts]
      exact (settles_readDefinition defined (Statement.sound_definition.1 sound)).bind
        fun _ _ => .quiet rfl _
  | .forEach isAsync target iter body orelse =>
      rw [Statement.parts, readStmt]
      obtain ⟨⟨_, body_sound⟩, orelse_sound⟩ := Statement.sound_forEach.1 sound
      cases isAsync with
      | true => exact .quiet rfl _
      | false =>
          simp only [Extent.under, Bool.false_eq_true, if_false, List.append_assoc]
          exact (settles_readExpr target).bind fun _ _ => (settles_readExpr iter).bind
            fun _ _ => (settles_readStmts body body_sound).bind
            fun _ _ => (settles_readStmts orelse orelse_sound).bind fun _ _ => .quiet rfl _
  | .ifElse test body alternative =>
      obtain ⟨⟨_, body_sound⟩, alternative_sound⟩ := Statement.sound_ifElse.1 sound
      rw [Statement.parts, readStmt, List.append_assoc, List.append_assoc]
      exact (settles_readExpr test).bind fun _ _ => (settles_readStmts body body_sound).bind
        fun _ _ => (settles_readAlternative alternative alternative_sound).bind
        fun _ _ => .quiet rfl _
  | .whileLoop test body orelse =>
      obtain ⟨⟨_, body_sound⟩, orelse_sound⟩ := Statement.sound_whileLoop.1 sound
      rw [Statement.parts, readStmt, List.append_assoc, List.append_assoc]
      exact (settles_readExpr test).bind fun _ _ => (settles_readStmts body body_sound).bind
        fun _ _ => (settles_readStmts orelse orelse_sound).bind fun _ _ => .quiet rfl _
termination_by structural statement

theorem settles_readDefinition (definition : Definition) (sound : definition.Sound) :
    Settles (definition.parts .visible) (readDefinition definition) := by
  match definition with
  | .function isAsync name parameters body =>
      rw [Definition.parts, readDefinition]
      cases isAsync with
      | true => exact .nothing _
      | false => exact (settles_readStmts body (Definition.sound_function.1 sound).2.2).map _
  | .klass name => exact .nothing _
termination_by structural definition

theorem settles_readAlternative (alternative : Alternative) (sound : alternative.Sound) :
    Settles (alternative.parts .visible) (readAlternative alternative) := by
  match alternative with
  | .none => exact .nothing _
  | .elseIf test body alternative =>
      obtain ⟨_, body_sound, alternative_sound⟩ := Alternative.sound_elseIf.1 sound
      rw [Alternative.parts, readAlternative, List.append_assoc]
      exact (settles_readExpr test).bind fun _ _ => (settles_readStmts body body_sound).bind
        fun _ _ => (settles_readAlternative alternative alternative_sound).map _
  | .otherwise body =>
      rw [Alternative.parts, readAlternative]
      exact settles_readStmts body (Alternative.sound_otherwise.1 sound)
termination_by structural alternative

theorem settles_readStmts (statements : List Statement)
    (sound : ∀ statement ∈ statements, statement.Sound) :
    Settles (Statement.listParts .visible statements) (readStmts statements) := by
  match statements with
  | [] =>
      rw [readStmts]
      exact .nothing _
  | statement :: rest =>
      obtain ⟨one, others⟩ := List.forall_mem_cons.1 sound
      rw [Statement.listParts, readStmts]
      exact (settles_readStmt statement one).bind fun _ _ => (settles_readStmts rest others).map _
termination_by structural statements

end

end Respell.Source
