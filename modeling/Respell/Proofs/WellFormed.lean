import Respell.Proofs.Reparsing
import Respell.Proofs.SoundStatements
import Respell.Respeller

/-!
The syntax trees that source texts are read into. In every node of such a tree names are not empty, a
comparison has as many operators as further operands and at least one, a boolean operator joins two
values or more, an assignment has a target, and no number is negative.
-/

set_option autoImplicit false

namespace Respell

namespace Syntax

/-! ### Nodes and their shapes -/

mutual

/-- The nodes of an expression, itself first. -/
def Expr.nodes : Expr → List Node
  | .call func args keywords =>
    .expr (.call func args keywords) ::
      (func.nodes ++ Expr.listNodes args ++ Keyword.listNodes keywords)
  | .attribute value attr => .expr (.attribute value attr) :: value.nodes
  | .binaryOp left op right => .expr (.binaryOp left op right) :: (left.nodes ++ right.nodes)
  | .booleanOp op values => .expr (.booleanOp op values) :: Expr.listNodes values
  | .compare left ops comparators =>
    .expr (.compare left ops comparators) :: (left.nodes ++ Expr.listNodes comparators)
  | .subscript value index => .expr (.subscript value index) :: (value.nodes ++ index.nodes)
  | .dict entries => .expr (.dict entries) :: DictEntry.listNodes entries
  | .list items => .expr (.list items) :: Expr.listNodes items
  | .tuple items => .expr (.tuple items) :: Expr.listNodes items
  | value => [.expr value]

def Keyword.nodes : Keyword → List Node
  | .named _ value => value.nodes
  | .spread value => value.nodes

def DictEntry.nodes : DictEntry → List Node
  | .keyed key value => key.nodes ++ value.nodes
  | .spread value => value.nodes

def Expr.listNodes : List Expr → List Node
  | [] => []
  | value :: rest => value.nodes ++ Expr.listNodes rest

def Keyword.listNodes : List Keyword → List Node
  | [] => []
  | keyword :: rest => keyword.nodes ++ Keyword.listNodes rest

def DictEntry.listNodes : List DictEntry → List Node
  | [] => []
  | entry :: rest => entry.nodes ++ DictEntry.listNodes rest

end

mutual

/-- The nodes of a statement, itself first. -/
def Stmt.nodes : Stmt → List Node
  | .assign targets value =>
    .stmt (.assign targets value) :: (Expr.listNodes targets ++ value.nodes)
  | .expr value => .stmt (.expr value) :: value.nodes
  | .returns value => .stmt (.returns value) :: Expr.listNodes value.toList
  | .functionDef definition => .stmt (.functionDef definition) :: definition.nodes
  | .forEach target iter body orelse =>
    .stmt (.forEach target iter body orelse) ::
      (target.nodes ++ iter.nodes ++ Stmt.listNodes body ++ Stmt.listNodes orelse)
  | .ifElse test body orelse =>
    .stmt (.ifElse test body orelse) ::
      (test.nodes ++ Stmt.listNodes body ++ Stmt.listNodes orelse)
  | .whileLoop test body orelse =>
    .stmt (.whileLoop test body orelse) ::
      (test.nodes ++ Stmt.listNodes body ++ Stmt.listNodes orelse)
  | .other kind => [.stmt (.other kind)]

/-- The nodes of a function, itself first. -/
def FunctionDef.nodes : FunctionDef → List Node
  | .mk name params body => .function (.mk name params body) :: Stmt.listNodes body

def Stmt.listNodes : List Stmt → List Node
  | [] => []
  | stmt :: rest => stmt.nodes ++ Stmt.listNodes rest

end

/-- The nodes of a source file. -/
def Module.nodes (module : Module) : List Node := Stmt.listNodes module.body

/-- A number that a literal can denote: not negative, and not without a value. -/
def Constant.Literal : Constant → Prop
  | .int value => 0 ≤ value.toInt
  | .float bits => Decimal.isNegative bits.toNat = false ∧ bits.toNat % Decimal.signBit ≤ Decimal.infinity
  | _ => True

theorem Expr.listNodes_eq (values : List Expr) : Expr.listNodes values = values.flatMap Expr.nodes :=
  Source.eq_flatMap rfl (fun _ _ => rfl) values

theorem Keyword.listNodes_eq (keywords : List Keyword) :
    Keyword.listNodes keywords = keywords.flatMap Keyword.nodes :=
  Source.eq_flatMap rfl (fun _ _ => rfl) keywords

theorem DictEntry.listNodes_eq (entries : List DictEntry) :
    DictEntry.listNodes entries = entries.flatMap DictEntry.nodes :=
  Source.eq_flatMap rfl (fun _ _ => rfl) entries

theorem Stmt.listNodes_eq (stmts : List Stmt) : Stmt.listNodes stmts = stmts.flatMap Stmt.nodes :=
  Source.eq_flatMap rfl (fun _ _ => rfl) stmts

end Syntax

open Syntax

/-- The shape of a node. -/
def Node.Shaped : Node → Prop
  | .expr (.name text) => text ≠ ""
  | .expr (.attribute _ attr) => attr ≠ ""
  | .expr (.call _ _ keywords) => ∀ keyword ∈ keywords, keyword.arg? ≠ some ""
  | .expr (.constant value) => value.Literal
  | .expr (.booleanOp _ values) => 2 ≤ values.length
  | .expr (.compare _ ops comparators) => ops.length = comparators.length ∧ 1 ≤ ops.length
  | .stmt (.assign targets _) => 1 ≤ targets.length
  | .function definition => definition.name ≠ "" ∧ "" ∉ definition.params
  | _ => True

namespace Syntax

/-- Each node of an expression has its shape. -/
def Expr.Shaped (value : Expr) : Prop := ∀ node ∈ value.nodes, node.Shaped

/-- Each node of a named argument has its shape, and its name is not empty. -/
def Keyword.Shaped (keyword : Keyword) : Prop :=
  keyword.arg? ≠ some "" ∧ ∀ node ∈ keyword.nodes, node.Shaped

def DictEntry.Shaped (entry : DictEntry) : Prop := ∀ node ∈ entry.nodes, node.Shaped

/-- Each node of a statement has its shape. -/
def Stmt.Shaped (stmt : Stmt) : Prop := ∀ node ∈ stmt.nodes, node.Shaped

namespace Expr

variable {func value index left right : Expr} {items : List Expr}

theorem Shaped.leaf {value : Expr} (alone : value.nodes = [.expr value])
    (shaped : (Node.expr value).Shaped) : value.Shaped := by
  intro node member
  rw [alone] at member
  rwa [List.mem_singleton.mp member]

/-- An expression has its shape if it has it itself and what stands in it does. -/
theorem shaped_iff (value : Expr) : value.Shaped ↔ (Node.expr value).Shaped ∧ match value with
    | .call func args keywords =>
      (func.Shaped ∧ ∀ value ∈ args, value.Shaped) ∧
        ∀ keyword ∈ keywords, ∀ node ∈ keyword.nodes, node.Shaped
    | .attribute value _ => value.Shaped
    | .binaryOp left _ right => left.Shaped ∧ right.Shaped
    | .booleanOp _ values => ∀ value ∈ values, value.Shaped
    | .compare left _ comparators => left.Shaped ∧ ∀ value ∈ comparators, value.Shaped
    | .subscript value index => value.Shaped ∧ index.Shaped
    | .dict entries => ∀ entry ∈ entries, entry.Shaped
    | .list items | .tuple items => ∀ value ∈ items, value.Shaped
    | _ => True := by
  cases value <;>
    simp only [Shaped, DictEntry.Shaped, nodes, listNodes_eq, Keyword.listNodes_eq,
      DictEntry.listNodes_eq, List.forall_mem_cons, List.forall_mem_append,
      List.forall_mem_flatMap, List.not_mem_nil, false_imp_iff, implies_true, and_true]

theorem shaped_call {keywords : List Keyword} (caller : func.Shaped)
    (each : ∀ value ∈ items, value.Shaped) (named : ∀ keyword ∈ keywords, keyword.Shaped) :
    (Expr.call func items keywords).Shaped :=
  (shaped_iff _).mpr ⟨fun keyword member => (named keyword member).1, ⟨caller, each⟩,
    fun keyword member => (named keyword member).2⟩

end Expr

/-- A statement has its shape if it has it itself and what stands in it does. -/
theorem Stmt.shaped_iff (stmt : Stmt) : stmt.Shaped ↔ (Node.stmt stmt).Shaped ∧ match stmt with
    | .assign targets value => (∀ target ∈ targets, target.Shaped) ∧ value.Shaped
    | .expr value => value.Shaped
    | .returns value => ∀ one ∈ value, one.Shaped
    | .functionDef (.mk name params body) =>
      (name ≠ "" ∧ "" ∉ params) ∧ ∀ stmt ∈ body, stmt.Shaped
    | .forEach target iter body orelse =>
      ((target.Shaped ∧ iter.Shaped) ∧ ∀ stmt ∈ body, stmt.Shaped) ∧
        ∀ stmt ∈ orelse, stmt.Shaped
    | .ifElse test body orelse | .whileLoop test body orelse =>
      (test.Shaped ∧ ∀ stmt ∈ body, stmt.Shaped) ∧ ∀ stmt ∈ orelse, stmt.Shaped
    | .other _ => True := by
  rcases stmt with _ | _ | _ | ⟨_, _, _⟩ | _ | _ | _ | _ <;>
    simp only [Shaped, Expr.Shaped, nodes, FunctionDef.nodes, listNodes_eq, Expr.listNodes_eq,
      List.forall_mem_cons, List.forall_mem_append, List.forall_mem_flatMap, Option.mem_toList,
      Option.mem_def, List.not_mem_nil, false_imp_iff, implies_true, and_true]
  rfl

end Syntax

namespace Source

/-! ### Numbers -/

theorem literal_readInteger {digits : List Char} {value : Int64}
    (found : readInteger digits = some value) : (Constant.int value).Literal := by
  unfold readInteger at found
  split at found
  next number _ =>
    split at found
    next fits =>
      obtain rfl := Option.some.inj found
      change 0 ≤ (Int64.ofNat number).toInt
      rw [Int64.toInt_ofNat_of_lt fits]
      exact Int.natCast_nonneg number
    · cases found
  · cases found

theorem ofRatio_le (num den : Nat) : Decimal.ofRatio num den ≤ Decimal.infinity :=
  Nat.min_le_right _ _

theorem ofDecimal_le (digits : Nat) (exponent : Int) :
    Decimal.ofDecimal digits exponent ≤ Decimal.infinity := by
  unfold Decimal.ofDecimal
  dsimp only
  split
  · exact Nat.zero_le _
  · split
    · exact Nat.le_refl _
    · split
      · exact ofRatio_le _ _
      · exact ofRatio_le _ _

theorem literal_readFloat {digits : List Char} {bits : UInt64}
    (found : readFloat digits = some bits) : (Constant.float bits).Literal := by
  obtain ⟨⟨number, exponent⟩, -, rfl⟩ := Option.map_eq_some_iff.mp found
  have least := ofDecimal_le number exponent
  dsimp only
  generalize Decimal.ofDecimal number exponent = pattern at least
  have positive : Decimal.infinity < Decimal.signBit := by decide
  have small : pattern < UInt64.size := by
    have : Decimal.signBit < UInt64.size := by decide
    omega
  change Decimal.isNegative (UInt64.ofNat pattern).toNat = false ∧ _
  rw [UInt64.toNat_ofNat_of_lt' small]
  refine ⟨?_, ?_⟩
  · simp only [Decimal.isNegative, decide_eq_false_iff_not]
    omega
  · exact (Nat.mod_le _ _).trans least

/-! ### Expressions -/

theorem shaped_kind (kind : String) : (Expr.other kind).Shaped := .leaf rfl trivial

theorem shaped_firstOf {leading : List Trivia} {read : Except ReadError Expr}
    (shaped : SatisfiesM Expr.Shaped read) : SatisfiesM Expr.Shaped (firstOf leading read) := by
  unfold firstOf
  split
  · exact shaped
  · exact .pure (shaped_kind _)

theorem shaped_firstBut {leading : List Trivia} {read : Except ReadError Expr}
    (shaped : SatisfiesM Expr.Shaped read) : SatisfiesM Expr.Shaped (firstBut leading read) := by
  unfold firstBut
  split
  · exact .pure (shaped_kind _)
  · exact shaped

/-- A run with one more value has at least two. -/
theorem shaped_run {op : BooleanOperator} {values : List Expr} {last : Expr}
    (some : values ≠ []) (each : ∀ value ∈ values, value.Shaped) (one : last.Shaped) :
    (Expr.booleanOp op (values ++ [last])).Shaped := by
  refine (Expr.shaped_iff _).mpr ⟨?_, ?_⟩
  · change 2 ≤ (values ++ [last]).length
    have := List.length_pos_iff.mpr some
    rw [List.length_append, List.length_singleton]
    omega
  · exact List.forall_mem_append.mpr ⟨each, List.forall_mem_singleton.mpr one⟩

/-- The operator of a link. -/
def Link.op? : Link → Option CompareOperator
  | .trivia _ => none
  | .step op _ => some op

/-- Whether a link is a line continuation. -/
def Link.isContinuation : Link → Bool
  | .trivia .continuation => true
  | _ => false

/-- Links give their operators, and an operand for each operator and each continuation. -/
theorem length_readLinks {links : List Link} {ops : List CompareOperator} {operands : List Expr}
    (ran : readLinks links = .ok (ops, operands)) :
    ops = links.filterMap Link.op? ∧
      operands.length = ops.length + links.countP Link.isContinuation := by
  induction links generalizing ops operands with
  | nil =>
      rw [readLinks] at ran
      cases ran
      exact ⟨rfl, rfl⟩
  | cons link rest ih =>
      rw [readLinks_cons] at ran
      obtain ⟨⟨here, one⟩, first, ran⟩ := bind_eq_ok ran
      obtain ⟨⟨others, more⟩, inner, ran⟩ := bind_eq_ok ran
      cases ran
      obtain ⟨rfl, length⟩ := ih inner
      rw [List.filterMap_cons, List.countP_cons, List.length_append, List.length_append, length]
      rcases link with (_ | _) | ⟨op, tree⟩
      · cases first
        exact ⟨rfl, by simp [Link.isContinuation]⟩
      · cases first
        exact ⟨rfl, by simp [Link.isContinuation]; omega⟩
      · obtain ⟨operand, -, first⟩ := bind_eq_ok first
        cases first
        exact ⟨rfl, by simp [Link.isContinuation]; omega⟩

/-- The left side of a boolean operator gives one value or more. -/
theorem shaped_runOf (op : BooleanOperator) (tree : Tree) {value : Expr} (shaped : value.Shaped) :
    runOf op tree value ≠ [] ∧ ∀ one ∈ runOf op tree value, one.Shaped := by
  unfold runOf
  split
  next op' values =>
    obtain ⟨several, each⟩ := (Expr.shaped_iff _).mp shaped
    split
    · refine ⟨?_, each⟩
      rintro rfl
      exact absurd several (by simp [Node.Shaped])
    · exact ⟨List.cons_ne_nil _ _, List.forall_mem_singleton.mpr shaped⟩
  · exact ⟨List.cons_ne_nil _ _, List.forall_mem_singleton.mpr shaped⟩

theorem shaped_readValue {tree : Tree} (shaped : SatisfiesM Expr.Shaped (readExpr tree)) :
    SatisfiesM Expr.Shaped (readValue tree) := by
  unfold readValue
  split
  · exact .pure (shaped_kind _)
  · exact shaped

theorem shaped_readChild {tree : Tree} (shaped : SatisfiesM Expr.Shaped (readExpr tree)) :
    SatisfiesM (∀ value ∈ ·, value.Shaped) (readChild tree) := by
  unfold readChild
  split
  · exact .pure (List.forall_mem_nil _)
  · exact .pure (List.forall_mem_singleton.mpr (shaped_kind _))
  · exact shaped.bind fun _ one => .pure (List.forall_mem_singleton.mpr one)

/-- What an argument is read into: values and named arguments, each with its shape. -/
def ShapedArguments (read : List Expr × List Keyword) : Prop :=
  (∀ value ∈ read.1, value.Shaped) ∧ ∀ keyword ∈ read.2, keyword.Shaped

theorem shaped_positional {tree : Tree} (shaped : SatisfiesM Expr.Shaped (readExpr tree)) :
    SatisfiesM ShapedArguments (readArgument (.positional tree)) := by
  have single {value : Expr} (one : value.Shaped) : ShapedArguments ([value], []) :=
    ⟨List.forall_mem_singleton.mpr one, List.forall_mem_nil _⟩
  unfold readArgument
  split
  · exact .pure ⟨List.forall_mem_nil _, List.forall_mem_nil _⟩
  · exact .pure (single (shaped_kind _))
  next same =>
    obtain ⟨rfl⟩ := Argument.positional.inj same
    exact shaped.bind fun _ one => .pure (single one)
  next same => cases same
  next same => cases same

/-- A comparison that is read has an operator, and an operand for each one. -/
theorem shaped_comparison {links : List Link} (compares : ∃ op operand, .step op operand ∈ links)
    {left : Expr} (one : left.Shaped) {read : List CompareOperator × List Expr}
    (ran : readLinks links = .ok read) (each : ∀ value ∈ read.2, value.Shaped) :
    SatisfiesM Expr.Shaped (if read.2.length == read.1.length then
        (.ok (.compare left read.1 read.2) : Except ReadError Expr)
      else .error unpairedComparison) := by
  split
  next paired =>
    have same : read.2.length = read.1.length := by simpa using paired
    have some : 1 ≤ read.1.length := by
      obtain ⟨op, operand, member⟩ := compares
      rw [(length_readLinks ran).1]
      exact List.length_pos_of_mem (List.mem_filterMap.mpr ⟨_, member, rfl⟩)
    exact .pure ((Expr.shaped_iff _).mpr ⟨⟨same.symm, some⟩, one, each⟩)
  · exact SatisfiesM_Except_eq.mpr nofun

mutual

/-- What a sound tree is read into has its shape. -/
theorem shaped_readExpr (tree : Tree) (sound : tree.Sound) :
    SatisfiesM Expr.Shaped (readExpr tree) := by
  match tree with
  | .trivia _ | .starred | .yield | .aliased | .other _ =>
      rw [readExpr]
      exact .pure (shaped_kind _)
  | .parenthesizedSplat =>
      rw [readExpr]
      exact .pure ((Expr.shaped_iff _).mpr
        ⟨trivial, List.forall_mem_singleton.mpr (shaped_kind _)⟩)
  | .name text =>
      rw [readExpr]
      exact .pure (.leaf rfl (Tree.sound_name.mp sound))
  | .integer digits =>
      rw [readExpr]
      refine .pure ?_
      split
      next found => exact .leaf rfl (literal_readInteger found)
      · exact shaped_kind _
  | .float digits =>
      rw [readExpr]
      refine .pure ?_
      split
      next found => exact .leaf rfl (literal_readFloat found)
      · exact shaped_kind _
  | .strings first rest =>
      rw [readExpr]
      refine .pure ?_
      unfold readStrings
      split
      · exact .leaf rfl trivial
      · exact shaped_kind _
  | .true | .false | .none | .ellipsis =>
      rw [readExpr]
      exact .pure (.leaf rfl trivial)
  | .call func arguments =>
      obtain ⟨caller, each⟩ := Tree.sound_call.mp sound
      rw [readExpr]
      exact (shaped_readExpr func caller).bind fun _ one =>
        (shaped_readArguments arguments each).bind fun _ all =>
          .pure (Expr.shaped_call one all.1 all.2)
  | .generatorCall func =>
      rw [readExpr]
      exact (shaped_readExpr func (Tree.sound_generatorCall.mp sound)).bind fun _ one =>
        .pure (Expr.shaped_call one (List.forall_mem_singleton.mpr (shaped_kind _))
          (List.forall_mem_nil _))
  | .attribute object attr =>
      obtain ⟨named, owner⟩ := Tree.sound_attribute.mp sound
      rw [readExpr]
      exact (shaped_readExpr object owner).bind fun _ one =>
        .pure ((Expr.shaped_iff _).mpr ⟨named, one⟩)
  | .subscript object index more =>
      obtain ⟨⟨owner, key⟩, each⟩ := Tree.sound_subscript.mp sound
      rw [readExpr]
      refine (shaped_readExpr object owner).bind fun _ value =>
        (shaped_readExpr index key).bind fun _ one =>
          (shaped_readExprs more each).bind fun _ rest =>
            .pure ((Expr.shaped_iff _).mpr ⟨trivial, value, ?_⟩)
      split
      · exact one
      · exact (Expr.shaped_iff _).mpr ⟨trivial, List.forall_mem_cons.mpr ⟨one, rest⟩⟩
  | .binary left op right =>
      obtain ⟨one, other⟩ := Tree.sound_binary.mp sound
      rw [readExpr]
      exact (shaped_readExpr left one).bind fun _ first =>
        (shaped_readExpr right other).bind fun _ second =>
          .pure ((Expr.shaped_iff _).mpr ⟨trivial, first, second⟩)
  | .boolean left op right =>
      obtain ⟨one, other⟩ := Tree.sound_boolean.mp sound
      have run : SatisfiesM (fun values => values ≠ [] ∧ ∀ value ∈ values, value.Shaped)
          (readRun op left) := by
        rw [readRun_eq]
        exact (shaped_readExpr left one).bind fun _ first => .pure (shaped_runOf op left first)
      rw [readExpr]
      exact run.bind fun _ values => (shaped_readExpr right other).bind fun _ last =>
        .pure (shaped_run values.1 values.2 last)
  | .comparison first links =>
      obtain ⟨compares, one, each⟩ := Tree.sound_comparison.mp sound
      have all := SatisfiesM_Except_eq.mp (shaped_readLinks links each)
      have rest : SatisfiesM
          (fun read => readLinks links = .ok read ∧ ∀ value ∈ read.2, value.Shaped)
          (readLinks links) :=
        SatisfiesM_Except_eq.mpr fun read ran => ⟨ran, all read ran⟩
      rw [readExpr]
      exact (shaped_readExpr first one).bind fun _ left => rest.bind fun _ read =>
        shaped_comparison compares left read.1 read.2
  | .list children =>
      rw [readExpr]
      exact (shaped_readChildren children (Tree.sound_list.mp sound)).bind fun _ each =>
        .pure ((Expr.shaped_iff _).mpr ⟨trivial, each⟩)
  | .tuple children =>
      rw [readExpr]
      exact (shaped_readChildren children (Tree.sound_tuple.mp sound)).bind fun _ each =>
        .pure ((Expr.shaped_iff _).mpr ⟨trivial, each⟩)
  | .dictionary entries =>
      rw [readExpr]
      exact (shaped_readEntries entries (Tree.sound_dictionary.mp sound)).bind fun _ each =>
        .pure ((Expr.shaped_iff _).mpr ⟨trivial, each⟩)
  | .parenthesized leading inner trailing =>
      have one := shaped_readExpr inner (Tree.sound_parenthesized.mp sound)
      rw [readExpr_parenthesized]
      exact shaped_firstBut (shaped_readValue one)
termination_by structural tree

theorem shaped_readExprs (trees : List Tree) (sound : ∀ tree ∈ trees, tree.Sound) :
    SatisfiesM (∀ value ∈ ·, value.Shaped) (readExprs trees) := by
  match trees with
  | [] =>
      rw [readExprs]
      exact .pure (List.forall_mem_nil _)
  | tree :: rest =>
      obtain ⟨one, others⟩ := List.forall_mem_cons.mp sound
      rw [readExprs]
      exact (shaped_readExpr tree one).bind fun _ first =>
        (shaped_readExprs rest others).bind fun _ more =>
          .pure (List.forall_mem_cons.mpr ⟨first, more⟩)
termination_by structural trees

theorem shaped_readChildren (trees : List Tree) (sound : ∀ tree ∈ trees, tree.Sound) :
    SatisfiesM (∀ value ∈ ·, value.Shaped) (readChildren trees) := by
  match trees with
  | [] =>
      rw [readChildren]
      exact .pure (List.forall_mem_nil _)
  | tree :: rest =>
      obtain ⟨one, others⟩ := List.forall_mem_cons.mp sound
      rw [readChildren_cons]
      exact (shaped_readChild (shaped_readExpr tree one)).bind fun _ first =>
        (shaped_readChildren rest others).bind fun _ more =>
          .pure (List.forall_mem_append.mpr ⟨first, more⟩)
termination_by structural trees

theorem shaped_readArgument (argument : Argument) (sound : argument.Sound) :
    SatisfiesM ShapedArguments (readArgument argument) := by
  match argument with
  | .positional tree => exact shaped_positional (shaped_readExpr tree sound.2)
  | .keyword name tree =>
      have named : some name ≠ some "" := fun empty => sound.1 (Option.some.inj empty)
      exact (shaped_readExpr tree sound.2).bind fun _ one =>
        .pure ⟨List.forall_mem_nil _, List.forall_mem_singleton.mpr ⟨named, one⟩⟩
  | .spread leading tree =>
      exact (shaped_firstOf (shaped_readExpr tree sound.2)).bind fun _ one =>
        .pure ⟨List.forall_mem_nil _, List.forall_mem_singleton.mpr ⟨nofun, one⟩⟩
termination_by structural argument

theorem shaped_readArguments (arguments : List Argument)
    (sound : ∀ argument ∈ arguments, argument.Sound) :
    SatisfiesM ShapedArguments (readArguments arguments) := by
  match arguments with
  | [] =>
      rw [readArguments]
      exact .pure ⟨List.forall_mem_nil _, List.forall_mem_nil _⟩
  | argument :: rest =>
      obtain ⟨one, others⟩ := List.forall_mem_cons.mp sound
      rw [readArguments_cons]
      exact (shaped_readArgument argument one).bind fun _ first =>
        (shaped_readArguments rest others).bind fun _ more =>
          .pure ⟨List.forall_mem_append.mpr ⟨first.1, more.1⟩,
            List.forall_mem_append.mpr ⟨first.2, more.2⟩⟩
termination_by structural arguments

theorem shaped_readLink (link : Link) (sound : link.Sound) :
    SatisfiesM (fun read => ∀ value ∈ read.2, value.Shaped) (readLink link) := by
  match link with
  | .trivia .comment => exact .pure (List.forall_mem_nil _)
  | .trivia .continuation => exact .pure (List.forall_mem_singleton.mpr (shaped_kind _))
  | .step op tree =>
      exact (shaped_readExpr tree sound).bind fun _ one =>
        .pure (List.forall_mem_singleton.mpr one)
termination_by structural link

theorem shaped_readLinks (links : List Link) (sound : ∀ link ∈ links, link.Sound) :
    SatisfiesM (fun read => ∀ value ∈ read.2, value.Shaped) (readLinks links) := by
  match links with
  | [] =>
      rw [readLinks]
      exact .pure (List.forall_mem_nil _)
  | link :: rest =>
      obtain ⟨one, others⟩ := List.forall_mem_cons.mp sound
      rw [readLinks_cons]
      exact (shaped_readLink link one).bind fun _ first =>
        (shaped_readLinks rest others).bind fun _ more =>
          .pure (List.forall_mem_append.mpr ⟨first, more⟩)
termination_by structural links

theorem shaped_readEntry (entry : Entry) (sound : entry.Sound) :
    SatisfiesM DictEntry.Shaped (readEntry entry) := by
  match entry with
  | .pair key value =>
      obtain ⟨one, other⟩ := List.forall_mem_append.mp sound
      exact (shaped_readExpr key one).bind fun _ first =>
        (shaped_readExpr value other).bind fun _ second =>
          .pure (List.forall_mem_append.mpr ⟨first, second⟩)
  | .spread leading tree =>
      exact (shaped_firstOf (shaped_readExpr tree sound)).bind fun _ one => .pure one
termination_by structural entry

theorem shaped_readEntries (entries : List Entry) (sound : ∀ entry ∈ entries, entry.Sound) :
    SatisfiesM (∀ entry ∈ ·, entry.Shaped) (readEntries entries) := by
  match entries with
  | [] =>
      rw [readEntries]
      exact .pure (List.forall_mem_nil _)
  | entry :: rest =>
      obtain ⟨one, others⟩ := List.forall_mem_cons.mp sound
      rw [readEntries_cons]
      exact (shaped_readEntry entry one).bind fun _ first =>
        (shaped_readEntries rest others).bind fun _ more =>
          .pure (List.forall_mem_cons.mpr ⟨first, more⟩)
termination_by structural entries

end

/-! ### Statements -/

/-- Positional parameters have names if all parameters with a name do. -/
theorem named_readParameters {parameters : List Parameter} (named : .named "" ∉ parameters) :
    "" ∉ readParameters parameters := by
  induction parameters with
  | nil => exact List.not_mem_nil
  | cons parameter rest ih =>
      rw [List.mem_cons, not_or] at named
      cases parameter with
      | named text =>
          rw [readParameters, List.mem_cons, not_or]
          exact ⟨fun empty => named.1 (congrArg Parameter.named empty), ih named.2⟩
      | variadic => exact List.not_mem_nil
      | unnamed => exact ih named.2

theorem shaped_some {stmt : Stmt} (shaped : stmt.Shaped) : ∀ one ∈ some stmt, one.Shaped := by
  rintro one ⟨⟩
  exact shaped

theorem shaped_other (kind : String) : ∀ one ∈ some (Stmt.other kind), one.Shaped :=
  shaped_some ((Stmt.shaped_iff _).mpr ⟨trivial, trivial⟩)

theorem shaped_readExpression {tree : Tree} (sound : tree.Sound) :
    SatisfiesM Stmt.Shaped (readExpression tree) := by
  unfold readExpression
  split
  · exact .pure (shaped_other _ _ rfl)
  · exact (shaped_readValue (shaped_readExpr _ sound)).bind fun _ one =>
      .pure ((Stmt.shaped_iff _).mpr ⟨trivial, one⟩)

mutual

/-- What a sound statement is read into has its shape. -/
theorem shaped_readStmt (statement : Statement) (sound : statement.Sound) :
    SatisfiesM (∀ stmt ∈ ·, stmt.Shaped) (readStmt statement) := by
  match statement with
  | .trivia .comment =>
      rw [readStmt]
      exact .pure nofun
  | .trivia .continuation | .imports _ | .importsFrom _ _ | .other _ =>
      unfold readStmt
      exact .pure (shaped_other _)
  | .expression tree =>
      rw [readStmt_expression]
      exact (shaped_readExpression (Statement.sound_expression.mp sound)).bind fun _ one =>
        .pure (shaped_some one)
  | .assignment first annotated more value =>
      have chain := Statement.sound_assignment.mp sound
      rw [readStmt]
      split
      · exact .pure (shaped_other _)
      · refine (shaped_readExpr first chain.first).bind fun _ one =>
          (shaped_readExprs more chain.more).bind fun _ others => ?_
        have each := List.forall_mem_cons.mpr ⟨one, others⟩
        cases value with
        | none => exact SatisfiesM_Except_eq.mpr nofun
        | some tree =>
            exact (shaped_readValue (shaped_readExpr tree (chain.value tree rfl))).bind
              fun _ assigned => .pure (shaped_some ((Stmt.shaped_iff _).mpr
                ⟨Nat.succ_le_succ (Nat.zero_le _), each, assigned⟩))
  | .returns _ none =>
      rw [readStmt]
      exact .pure (shaped_some ((Stmt.shaped_iff _).mpr ⟨trivial, nofun⟩))
  | .returns leading (some tree) =>
      have one := Statement.sound_returns.mp sound tree rfl
      rw [readStmt]
      refine (shaped_firstOf (shaped_readExpr tree one)).bind fun _ returned =>
        .pure (shaped_some ((Stmt.shaped_iff _).mpr ⟨trivial, ?_⟩))
      rintro value ⟨⟩
      exact returned
  | .definition text defined =>
      rw [readStmt]
      exact (shaped_readDefinition defined (Statement.sound_definition.mp sound)).bind fun _ one =>
        .pure (shaped_some one)
  | .forEach isAsync target iter body orelse =>
      obtain ⟨⟨⟨one, other⟩, inside⟩, otherwise⟩ := Statement.sound_forEach.mp sound
      rw [readStmt]
      split
      · exact .pure (shaped_other _)
      · exact (shaped_readExpr target one).bind fun _ first =>
          (shaped_readExpr iter other).bind fun _ second =>
            (shaped_readStmts body inside).bind fun _ third =>
              (shaped_readStmts orelse otherwise).bind fun _ fourth =>
                .pure (shaped_some ((Stmt.shaped_iff _).mpr
                  ⟨trivial, ⟨⟨first, second⟩, third⟩, fourth⟩))
  | .ifElse test body alternative =>
      obtain ⟨⟨condition, inside⟩, otherwise⟩ := Statement.sound_ifElse.mp sound
      rw [readStmt]
      exact (shaped_readExpr test condition).bind fun _ first =>
        (shaped_readStmts body inside).bind fun _ second =>
          (shaped_readAlternative alternative otherwise).bind fun _ third =>
            .pure (shaped_some ((Stmt.shaped_iff _).mpr ⟨trivial, ⟨first, second⟩, third⟩))
  | .whileLoop test body orelse =>
      obtain ⟨⟨condition, inside⟩, otherwise⟩ := Statement.sound_whileLoop.mp sound
      rw [readStmt]
      exact (shaped_readExpr test condition).bind fun _ first =>
        (shaped_readStmts body inside).bind fun _ second =>
          (shaped_readStmts orelse otherwise).bind fun _ third =>
            .pure (shaped_some ((Stmt.shaped_iff _).mpr ⟨trivial, ⟨first, second⟩, third⟩))
termination_by structural statement

theorem shaped_readDefinition (defined : Definition) (sound : defined.Sound) :
    SatisfiesM Stmt.Shaped (readDefinition defined) := by
  match defined with
  | .function isAsync name parameters body =>
      obtain ⟨named, each, inside⟩ := Definition.sound_function.mp sound
      rw [readDefinition]
      split
      · exact .pure (shaped_other _ _ rfl)
      · exact (shaped_readStmts body inside).bind fun _ lines =>
          .pure ((Stmt.shaped_iff _).mpr ⟨trivial, ⟨named, named_readParameters each⟩, lines⟩)
  | .klass name =>
      rw [readDefinition]
      exact .pure (shaped_other _ _ rfl)
termination_by structural defined

theorem shaped_readAlternative (alternative : Alternative) (sound : alternative.Sound) :
    SatisfiesM (∀ stmt ∈ ·, stmt.Shaped) (readAlternative alternative) := by
  match alternative with
  | .none =>
      rw [readAlternative]
      exact .pure (List.forall_mem_nil _)
  | .elseIf test body alternative =>
      obtain ⟨condition, inside, otherwise⟩ := Alternative.sound_elseIf.mp sound
      rw [readAlternative]
      exact (shaped_readExpr test condition).bind fun _ first =>
        (shaped_readStmts body inside).bind fun _ second =>
          (shaped_readAlternative alternative otherwise).bind fun _ third =>
            .pure (List.forall_mem_singleton.mpr
              ((Stmt.shaped_iff _).mpr ⟨trivial, ⟨first, second⟩, third⟩))
  | .otherwise body =>
      rw [readAlternative]
      exact shaped_readStmts body (Alternative.sound_otherwise.mp sound)
termination_by structural alternative

theorem shaped_readStmts (statements : List Statement)
    (sound : ∀ statement ∈ statements, statement.Sound) :
    SatisfiesM (∀ stmt ∈ ·, stmt.Shaped) (readStmts statements) := by
  match statements with
  | [] =>
      rw [readStmts]
      exact .pure (List.forall_mem_nil _)
  | statement :: rest =>
      obtain ⟨one, others⟩ := List.forall_mem_cons.mp sound
      rw [readStmts]
      exact (shaped_readStmt statement one).bind fun _ first =>
        (shaped_readStmts rest others).bind fun _ more => .pure (List.forall_mem_append.mpr
          ⟨fun stmt member => first stmt (Option.mem_toList.mp member), more⟩)
termination_by structural statements

end

/-- Every node of the syntax tree of a source text that is read has its shape: a comparison has as
many operators as further operands and at least one, a boolean operator joins two values or more, an
assignment has a target, no number is negative or without a value, and no name is empty. -/
theorem read_wellFormed {source : String} {module : Syntax.Module} (accepted : read source = .ok module) :
    ∀ node ∈ module.nodes, node.Shaped := by
  obtain ⟨statements, parsed, accepted⟩ := bind_eq_ok accepted
  obtain ⟨body, ran, accepted⟩ := bind_eq_ok accepted
  cases accepted
  have sound := sound_of_parse? (parse_eq_ok parsed)
  rw [Module.nodes, Stmt.listNodes_eq, List.forall_mem_flatMap]
  exact SatisfiesM_Except_eq.mp (shaped_readStmts statements sound) body ran

/-- A comparison of three operands as a value of a boolean operator. -/
theorem read_wellFormed_chained : ∃ module,
    read "a < 1 <= b and c" = .ok module ∧ ∀ node ∈ module.nodes, node.Shaped := by
  have accepted : read "a < 1 <= b and c" = .ok ⟨[.expr (.booleanOp .and [
      .compare (.name "a") [.lt, .ltE] [.constant (.int 1), .name "b"], .name "c"])]⟩ := by
    cbv
  exact ⟨_, accepted, read_wellFormed accepted⟩

end Source

end Respell
