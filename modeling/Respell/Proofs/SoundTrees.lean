import Respell.Proofs.Isolation
import Respell.Proofs.Parts

/-!
Trees of expressions that a parser can build. Names, attributes and the names of arguments are not
empty, and a comparison compares something. The parsers of the grammar are gone through one by one,
under the promise that the rules that they use give trees of that kind.
-/

set_option autoImplicit false

namespace Respell.Source

/-! ### Sound parts -/

/-- An argument without a name, or with one that is not empty. -/
def Argument.Named : Argument → Prop
  | .keyword name _ => name ≠ ""
  | _ => True

/-- What holds of every part of a parse: names are not empty, a comparison has a second operand, and
a chain of assignments without a value has a type or a second target. -/
def Part.Sound : Part → Prop
  | .tree (.name text) => text ≠ ""
  | .tree (.attribute _ attr) => attr ≠ ""
  | .tree (.call _ arguments) => ∀ argument ∈ arguments, argument.Named
  | .tree (.comparison _ links) => ∃ op operand, .step op operand ∈ links
  | .statement (.assignment _ annotated more none) => annotated = true ∨ more ≠ []
  | .statement (.definition _ (.function _ name parameters _)) =>
    name ≠ "" ∧ .named "" ∉ parameters
  | _ => True

/-- Each part of a tree is sound. -/
def Tree.Sound (tree : Tree) : Prop := ∀ part ∈ tree.parts .whole, part.Sound

/-- Each part of an argument is sound, and so is its name. -/
def Argument.Sound (argument : Argument) : Prop :=
  argument.Named ∧ ∀ part ∈ argument.parts .whole, part.Sound

/-- Each part of a link is sound. -/
def Link.Sound (link : Link) : Prop := ∀ part ∈ link.parts .whole, part.Sound

/-- Each part of an entry is sound. -/
def Entry.Sound (entry : Entry) : Prop := ∀ part ∈ entry.parts .whole, part.Sound

namespace Tree

variable {func object value index left right first inner : Tree} {attr : String}
  {children : List Tree}

theorem Sound.leaf {tree : Tree} (alone : tree.parts .whole = [.tree tree])
    (sound : (Part.tree tree).Sound) : tree.Sound := by
  intro part member
  rw [alone] at member
  rwa [List.mem_singleton.mp member]

/-- A tree is sound if it is so itself and what stands in it is. -/
theorem sound_iff (tree : Tree) : tree.Sound ↔ (Part.tree tree).Sound ∧ match tree with
    | .call func arguments =>
      func.Sound ∧ ∀ argument ∈ arguments, ∀ part ∈ argument.parts .whole, part.Sound
    | .generatorCall func => func.Sound
    | .attribute object _ => object.Sound
    | .subscript value index more => (value.Sound ∧ index.Sound) ∧ ∀ tree ∈ more, tree.Sound
    | .binary left _ right | .boolean left _ right => left.Sound ∧ right.Sound
    | .comparison first links => first.Sound ∧ ∀ link ∈ links, link.Sound
    | .list children | .tuple children => ∀ tree ∈ children, tree.Sound
    | .dictionary entries => ∀ entry ∈ entries, entry.Sound
    | .parenthesized _ inner _ => inner.Sound
    | _ => True := by
  cases tree <;>
    simp only [Sound, Link.Sound, Entry.Sound, parts, listParts_eq, Argument.listParts_eq,
      Link.listParts_eq, Entry.listParts_eq, Extent.under, List.forall_mem_append,
      List.forall_mem_flatMap, List.forall_mem_singleton, and_comm, true_and]

theorem sound_name {text : String} : (Tree.name text).Sound ↔ text ≠ "" :=
  (sound_iff _).trans (and_iff_left trivial)

theorem sound_call {arguments : List Argument} :
    (Tree.call func arguments).Sound ↔
      func.Sound ∧ ∀ argument ∈ arguments, argument.Sound := by
  rw [sound_iff]
  constructor
  · rintro ⟨named, caller, each⟩
    exact ⟨caller, fun argument member => ⟨named argument member, each argument member⟩⟩
  · rintro ⟨caller, each⟩
    exact ⟨fun argument member => (each argument member).1, caller,
      fun argument member => (each argument member).2⟩

theorem sound_generatorCall : (Tree.generatorCall func).Sound ↔ func.Sound :=
  (sound_iff _).trans (and_iff_right trivial)

theorem sound_attribute : (Tree.attribute object attr).Sound ↔ attr ≠ "" ∧ object.Sound :=
  sound_iff _

theorem sound_subscript {more : List Tree} :
    (Tree.subscript value index more).Sound ↔
      (value.Sound ∧ index.Sound) ∧ ∀ tree ∈ more, tree.Sound :=
  (sound_iff _).trans (and_iff_right trivial)

theorem sound_binary {op : Syntax.BinaryOperator} :
    (Tree.binary left op right).Sound ↔ left.Sound ∧ right.Sound :=
  (sound_iff _).trans (and_iff_right trivial)

theorem sound_boolean {op : Syntax.BooleanOperator} :
    (Tree.boolean left op right).Sound ↔ left.Sound ∧ right.Sound :=
  (sound_iff _).trans (and_iff_right trivial)

theorem sound_comparison {links : List Link} :
    (Tree.comparison first links).Sound ↔
      (∃ op operand, Link.step op operand ∈ links) ∧ first.Sound ∧ ∀ link ∈ links, link.Sound :=
  sound_iff _

theorem sound_list : (Tree.list children).Sound ↔ ∀ tree ∈ children, tree.Sound :=
  (sound_iff _).trans (and_iff_right trivial)

theorem sound_tuple : (Tree.tuple children).Sound ↔ ∀ tree ∈ children, tree.Sound :=
  (sound_iff _).trans (and_iff_right trivial)

theorem sound_dictionary {entries : List Entry} :
    (Tree.dictionary entries).Sound ↔ ∀ entry ∈ entries, entry.Sound :=
  (sound_iff _).trans (and_iff_right trivial)

theorem sound_parenthesized {leading trailing : List Trivia} :
    (Tree.parenthesized leading inner trailing).Sound ↔ inner.Sound :=
  (sound_iff _).trans (and_iff_right trivial)

end Tree

namespace Grammar

theorem sound_trivia (gap : List Trivia) : ∀ tree ∈ triviaTrees gap, tree.Sound := by
  intro tree member
  obtain ⟨kind, -, rfl⟩ := List.mem_map.mp member
  exact .leaf rfl trivial

theorem sound_triviaArguments (gap : List Trivia) :
    ∀ argument ∈ triviaArguments gap, argument.Sound := by
  intro argument member
  obtain ⟨kind, -, rfl⟩ := List.mem_map.mp member
  exact ⟨trivial, Tree.Sound.leaf rfl trivial⟩

theorem sound_spread {leading : List Trivia} {value : Tree} (sound : value.Sound) :
    (Entry.spread leading value).Sound ∧ (Argument.spread leading value).Sound :=
  ⟨sound, trivial, sound⟩

theorem sound_pair {key value : Tree} (one : key.Sound) (other : value.Sound) :
    (Entry.pair key value).Sound := by
  intro part member
  rcases List.mem_append.mp member with inside | inside
  · exact one part inside
  · exact other part inside

/-- Targets in sequence are the first, which is trivia or a target, and the others. -/
theorem asTargets?_cons {child : Tree} {rest targets : List Tree}
    (found : asTarget?.asTargets? (child :: rest) = some targets) :
    ∃ first more, (first = child ∨ asTarget? child = some first) ∧
      asTarget?.asTargets? rest = some more ∧ targets = first :: more := by
  unfold asTarget?.asTargets? at found
  split at found
  · contradiction
  next kind rest' same =>
      obtain ⟨rfl, rfl⟩ := List.cons.inj same
      obtain ⟨more, each, rfl⟩ := Option.map_eq_some_iff.mp found
      exact ⟨_, more, .inl rfl, each, rfl⟩
  next child' rest' _ same =>
      obtain ⟨rfl, rfl⟩ := List.cons.inj same
      split at found
      next first more start each =>
          exact ⟨first, more, .inr start, each, (Option.some.inj found).symm⟩
      · cases found

mutual

/-- An expression that is used as a target stays sound. -/
theorem sound_asTarget? (tree : Tree) {target : Tree} (sound : tree.Sound)
    (found : asTarget? tree = some target) : target.Sound := by
  cases tree with
  | list children =>
      obtain ⟨targets, each, rfl⟩ := Option.map_eq_some_iff.mp found
      exact Tree.sound_list.mpr (sound_asTargets? children (Tree.sound_list.mp sound) each)
  | tuple children =>
      obtain ⟨targets, each, rfl⟩ := Option.map_eq_some_iff.mp found
      exact Tree.sound_tuple.mpr (sound_asTargets? children (Tree.sound_tuple.mp sound) each)
  | parenthesized leading inner trailing =>
      obtain ⟨one, inside, rfl⟩ := Option.map_eq_some_iff.mp found
      have target := sound_asTarget? inner (Tree.sound_parenthesized.mp sound) inside
      refine Tree.sound_tuple.mpr (List.forall_mem_append.mpr ⟨sound_trivia leading, ?_⟩)
      exact List.forall_mem_cons.mpr ⟨target, sound_trivia trailing⟩
  | name | «attribute» | subscript | starred => exact Option.some.inj found ▸ sound
  | _ => cases found
termination_by structural tree

theorem sound_asTargets? (trees : List Tree) {targets : List Tree}
    (sound : ∀ tree ∈ trees, tree.Sound) (found : asTarget?.asTargets? trees = some targets) :
    ∀ tree ∈ targets, tree.Sound := by
  cases trees with
  | nil =>
      obtain rfl := Option.some.inj found
      exact List.forall_mem_nil _
  | cons child rest =>
      obtain ⟨one, others⟩ := List.forall_mem_cons.mp sound
      obtain ⟨first, more, start, each, rfl⟩ := asTargets?_cons found
      refine List.forall_mem_cons.mpr ⟨?_, sound_asTargets? rest others each⟩
      rcases start with rfl | target
      · exact one
      · exact sound_asTarget? child one target
termination_by structural trees

end

end Grammar

/-! ### What the rules promise -/

/-- Each part of a statement is sound. -/
def Statement.Sound (statement : Statement) : Prop := ∀ part ∈ statement.parts .whole, part.Sound

/-- The trees of a chain are sound, and one without a value has a type or a second target. -/
structure Chain.Sound (links : Chain) : Prop where
  first : links.first.Sound
  more : ∀ tree ∈ links.more, tree.Sound
  value : ∀ tree ∈ links.value, tree.Sound
  last : links.value = none → links.annotated = true ∨ links.more ≠ []

/-- The trees on the right of an assignment are sound. -/
def Assigned.Sound : Assigned → Prop
  | .value tree _ => tree.Sound
  | .chain links => links.Sound
  | .augmented => True

/-- What a rule promises of what it reads. -/
def Rule.Sound : (rule : Rule) → rule.Result → Prop
  | .expression _ _, tree => Tree.Sound tree
  | .afterName _ _ name, tree => name ≠ "" → Tree.Sound tree
  | .atom _, tree => Tree.Sound tree
  | .iterable, tree => Tree.Sound tree
  | .assigned, read => Assigned.Sound read
  | .suite, body => ∀ statement ∈ body, Statement.Sound statement
  | _, _ => True

/-- What a rule promises of where it ends: an opening parenthesis is passed. -/
def Rule.Passes : Rule → Lexeme → Lexeme → Prop
  | .expression _ _, lexeme, stop | .atom _, lexeme, stop =>
    lexeme.token = .symbol "(" → stop.before.length < lexeme.start.length
  | _, _, _ => True

/-- Runs of the rules that keep what the rules promise. -/
structure Rule.Trusted (calls : (rule : Rule) → Lexeme → Outcome rule.Result) : Prop where
  reads : ∀ rule (lexeme : Lexeme), (calls rule lexeme).Reads lexeme
  sound : ∀ rule lexeme value stop, calls rule lexeme = ⟨some value, stop⟩ → rule.Sound value
  passes : ∀ rule lexeme value stop, calls rule lexeme = ⟨some value, stop⟩ →
    rule.Passes lexeme stop

/-- Whatever a parser reads has a property if the rules keep what they promise. -/
abbrev Parser.Keeps {α : Type} (property : α → Prop) (parser : Parser α) : Prop :=
  parser.GivesIf Rule.Trusted property

/-- Whatever a parser reads at a token has a property if the rules keep what they promise. -/
def Parser.KeepsAt {α : Type} (token : Token) (property : α → Prop) (parser : Parser α) : Prop :=
  ∀ calls, Rule.Trusted calls → ∀ lexeme value stop, lexeme.token = token →
    parser.run calls lexeme = ⟨some value, stop⟩ → property value

/-- A word that is not empty, or no word. -/
def Token.Spelled : Token → Prop
  | .word text => text ≠ ""
  | _ => True

theorem Lexeme.spelled_token (lexeme : Lexeme) : lexeme.token.Spelled := by
  cases found : lexeme.token with
  | word text =>
      obtain ⟨spelled, -⟩ := lexeme.spelled (by rw [found]; rfl) (by rw [found]; simp)
      rw [found] at spelled
      rintro rfl
      have nothing : lexeme.start.head? = none := Grammar.head?_of_word spelled
      rw [List.head?_eq_none_iff.mp nothing] at spelled
      cases spelled
  | _ => trivial

theorem Token.Spelled.identifier? {token : Token} {text : String} (spelled : token.Spelled)
    (found : token.identifier? = some text) : text ≠ "" := by
  cases token with
  | word word =>
      rw [Token.identifier?] at found
      split at found
      · cases found
      · exact Option.some.inj found ▸ spelled
  | _ => cases found

theorem Token.Spelled.name? {token : Token} {text : String} (spelled : token.Spelled)
    (found : token.name? = some text) : text ≠ "" := by
  cases token with
  | word word =>
      rw [Token.name?] at found
      split at found
      · cases found
      · exact Option.some.inj found ▸ spelled
  | _ => cases found

namespace Parser

variable {α β : Type} {property : α → Prop} {current : Token}

theorem run_token_bind {calls : (rule : Rule) → Lexeme → Outcome rule.Result} {lexeme : Lexeme}
    {next : Token → Parser α} :
    (Parser.token >>= next).run calls lexeme = (next lexeme.token).run calls lexeme := rfl

theorem Keeps.at {parser : Parser α} (keeps : Keeps property parser) :
    KeepsAt current property parser := by
  intro calls trust lexeme value stop _ read
  exact keeps calls trust lexeme value stop read

theorem KeepsAt.bind {first : Parser β} {next : β → Parser α} {before : β → Prop}
    (front : KeepsAt current before first)
    (back : ∀ value, before value → Keeps property (next value)) :
    KeepsAt current property (first >>= next) := by
  intro calls trust lexeme value stop here read
  obtain ⟨one, place, ran, rest⟩ := run_bind_iff.mp read
  exact back one (front calls trust lexeme one place here ran) calls trust place value stop rest

/-- What follows a look at a token is read at that token. -/
theorem Keeps.token {next : Token → Parser α}
    (back : ∀ token, token.Spelled → KeepsAt token property (next token)) :
    Keeps property (Parser.token >>= next) := by
  intro calls trust lexeme value stop read
  exact back lexeme.token lexeme.spelled_token calls trust lexeme value stop rfl read

theorem KeepsAt.token {next : Token → Parser α} (back : KeepsAt current property (next current)) :
    KeepsAt current property (Parser.token >>= next) := by
  intro calls trust lexeme value stop here read
  rw [run_token_bind, here] at read
  exact back calls trust lexeme value stop here read

/-- A loop whose first step is made at a token. -/
theorem KeepsAt.loop {σ : Type} (invariant : σ → Prop) {step : σ → Parser (Turn σ α)} {state : σ}
    (first : KeepsAt current (Turn.Holds invariant property) (step state))
    (steps : ∀ state, invariant state → Keeps (Turn.Holds invariant property) (step state)) :
    KeepsAt current property (Parser.loop step state) := by
  intro calls trust lexeme value stop here read
  rw [Parser.run] at read
  refine iterate_induct (fun other place => (other = state ∧ place.token = current) ∨
    invariant other) ?_ ?_ (.inl ⟨rfl, here⟩) read
  · rintro other place next rest (⟨rfl, here⟩ | holds) ran
    · exact .inr (first calls trust place _ rest here ran)
    · exact .inr (steps other holds calls trust place _ rest ran)
  · rintro other place value rest (⟨rfl, here⟩ | holds) ran
    · exact first calls trust place _ rest here ran
    · exact steps other holds calls trust place _ rest ran

theorem Keeps.body {line block : Parser α} {nothing : α} (one : Keeps property line)
    (none : property nothing) (other : Keeps property block) :
    Keeps property (Parser.body line nothing block) := by
  intro calls trust lexeme value stop ran
  by_cases isColon : lexeme.isSymbol ":" = true
  · rw [run_body isColon] at ran
    generalize lexeme.enter = entered at ran
    obtain ⟨opening, first⟩ := entered
    dsimp only at ran
    generalize inside : runBody calls line nothing block opening first = outcome at ran
    unfold Outcome.close at ran
    split at ran
    next found last =>
      split at ran
      · obtain ⟨rfl⟩ : found = value := by simpa using congrArg Outcome.value ran
        cases opening with
        | line => exact one calls trust _ _ _ inside
        | empty => exact Option.some.inj (congrArg Outcome.value inside) ▸ none
        | block => exact other calls trust _ _ _ inside
      · cases ran
    · cases ran
  · rw [Parser.run, if_neg isColon] at ran
    cases ran

theorem Keeps.call (rule : Rule) : Keeps rule.Sound (.call rule) := by
  intro calls trust lexeme value stop read
  exact trust.sound rule lexeme value stop read

end Parser

namespace Grammar

open Respell.Source.Parser (Keeps KeepsAt)

variable {expect : Expect}

theorem keeps_require {α : Type} {property : α → Prop} {value : Option α}
    (holds : ∀ found, value = some found → property found) : Keeps property (require value) := by
  cases value with
  | some found => exact .pure (holds found rfl)
  | none => exact .fail

theorem keeps_identifier : Keeps (· ≠ "") (identifier expect) := by
  refine .token fun token spelled => Keeps.at ?_
  refine .bind (keeps_require fun text => spelled.identifier?) fun text named => ?_
  exact .after fun _ => .pure named

theorem keeps_expression (rank : Nat) : Keeps Tree.Sound (expression rank expect) :=
  .call (.expression rank expect)

theorem keeps_itemsFrom {item : Parser Tree} (each : Keeps Tree.Sound item) {read : List Tree}
    (before : ∀ tree ∈ read, tree.Sound) :
    Keeps (fun trees => ∀ tree ∈ trees, tree.Sound) (itemsFrom item expect read) := by
  refine .loop (fun trees => ∀ tree ∈ trees, tree.Sound) ?_ before
  intro read before
  refine .after fun _ => .ite ?_ (.pure before)
  refine .after fun gap => .after fun _ => .after fun leading => ?_
  have spaced := List.forall_mem_append.mpr ⟨before, sound_trivia gap⟩
  refine .orElse (.bind each fun tree one => .pure ?_) (.pure spaced)
  have apart := List.forall_mem_append.mpr ⟨spaced, sound_trivia leading⟩
  exact List.forall_mem_append.mpr ⟨apart, List.forall_mem_singleton.mpr one⟩

theorem keeps_items {item : Parser Tree} (each : Keeps Tree.Sound item) :
    Keeps Tree.Sound (items item expect) := by
  refine .bind each fun first one => .after fun _ => .ite ?_ (.pure one)
  exact .bind (keeps_itemsFrom each (List.forall_mem_singleton.mpr one)) fun children all =>
    .pure (Tree.sound_tuple.mpr all)

theorem keeps_expressions : Keeps Tree.Sound (expressions expect) :=
  keeps_items (keeps_expression Rank.any)

theorem keeps_target : Keeps Tree.Sound (target expect) :=
  .bind (keeps_expression Rank.trailer) fun _ sound =>
    keeps_require fun _ => sound_asTarget? _ sound

theorem keeps_targets : Keeps Tree.Sound (targets expect) := keeps_items keeps_target

theorem keeps_yieldExpression : Keeps Tree.Sound (yieldExpression expect) := by
  have yield : Tree.yield.Sound := .leaf rfl trivial
  refine .after fun _ => .after fun _ => .ite ?_ ?_
  · exact .after fun _ => .after fun _ => .pure yield
  · exact .orElse (.after fun _ => .pure yield) (.pure yield)

theorem keeps_strings : Keeps Tree.Sound (strings expect) :=
  .after fun _ => .after fun _ => .pure (.leaf rfl trivial)

/-! ### Brackets -/

theorem keeps_splat : Keeps Tree.Sound splat :=
  .after fun _ => .after fun _ => .after fun _ => .pure (.leaf rfl trivial)

theorem keeps_element (close : String) : Keeps Tree.Sound (element close) := by
  refine .after fun _ => .ite keeps_yieldExpression (.after fun _ => .ite ?_ (keeps_expression _))
  refine .orElse (.bind (keeps_expression _) fun tree sound => ?_) keeps_splat
  exact .after fun _ => .after fun _ => .after fun _ => .ite (.pure sound) .fail

theorem keeps_elementsFrom (close : String) {read : List Tree}
    (before : ∀ tree ∈ read, tree.Sound) :
    Keeps (fun trees => ∀ tree ∈ trees, tree.Sound) (elementsFrom close read) := by
  refine .loop (fun trees => ∀ tree ∈ trees, tree.Sound) ?_ before
  intro read before
  refine .after fun gap => .after fun _ => ?_
  have spaced := List.forall_mem_append.mpr ⟨before, sound_trivia gap⟩
  refine .ite (.pure spaced) (.after fun _ => .after fun gap' => .after fun _ => ?_)
  have apart := List.forall_mem_append.mpr ⟨spaced, sound_trivia gap'⟩
  refine .ite (.pure apart) (.bind (keeps_element close) fun tree one => .pure ?_)
  exact List.forall_mem_append.mpr ⟨apart, List.forall_mem_singleton.mpr one⟩

theorem keeps_other (kind : String) : Keeps Tree.Sound (Pure.pure (.other kind)) :=
  .pure (.leaf rfl trivial)

theorem keeps_listDisplay : Keeps Tree.Sound (listDisplay expect) := by
  refine .after fun _ => .after fun gap => .after fun _ => .ite ?_ ?_
  · exact .after fun _ => .pure (Tree.sound_list.mpr (sound_trivia gap))
  · refine .bind (keeps_element "]") fun tree one => .after fun _ => .ite ?_ ?_
    · exact .after fun _ => .after fun _ => keeps_other "ListComp"
    · have first := List.forall_mem_append.mpr
        ⟨sound_trivia gap, List.forall_mem_singleton.mpr one⟩
      exact .bind (keeps_elementsFrom "]" first) fun children all => .after fun _ =>
        .pure (Tree.sound_list.mpr all)

theorem keeps_group : Keeps Tree.Sound (group expect) := by
  refine .after fun _ => .after fun gap => .after fun _ => .ite ?_ ?_
  · exact .after fun _ => .pure (Tree.sound_tuple.mpr (sound_trivia gap))
  · refine .bind (keeps_element ")") fun tree one => .after fun _ => .ite ?_ ?_
    · exact .after fun _ => .after fun _ => keeps_other "GeneratorExp"
    · refine .after fun _ => .ite ?_ ?_
      · refine .after fun trailing => .after fun _ => ?_
        split
        · exact .pure (.leaf rfl trivial)
        · exact .pure (Tree.sound_parenthesized.mpr one)
      · have first := List.forall_mem_append.mpr
          ⟨sound_trivia gap, List.forall_mem_singleton.mpr one⟩
        exact .bind (keeps_elementsFrom ")" first) fun children all => .after fun _ =>
          .pure (Tree.sound_tuple.mpr all)

theorem keeps_pairValue : Keeps Tree.Sound pairValue := .after fun _ => keeps_expression _

theorem keeps_spread : Keeps (fun read => read.2.Sound) spread :=
  .after fun _ => .after fun _ => .bind (keeps_expression _) fun _ sound => .pure sound

theorem keeps_entriesFrom {read : List Entry} (before : ∀ entry ∈ read, entry.Sound) :
    Keeps (fun entries => ∀ entry ∈ entries, entry.Sound) (entriesFrom read) := by
  refine .loop (fun entries => ∀ entry ∈ entries, entry.Sound) ?_ before
  intro read before
  refine .after fun _ => .ite (.pure before) (.after fun _ => .after fun _ => ?_)
  refine .ite (.pure before) (.after fun _ => .ite ?_ ?_)
  · refine .bind keeps_spread fun ⟨leading, value⟩ sound => .pure ?_
    exact List.forall_mem_append.mpr ⟨before, List.forall_mem_singleton.mpr (sound_spread sound).1⟩
  · refine .bind (keeps_expression _) fun key one => .bind keeps_pairValue fun value other => ?_
    refine .pure (List.forall_mem_append.mpr ⟨before, ?_⟩)
    exact List.forall_mem_singleton.mpr (sound_pair one other)

theorem keeps_dictionaryFrom {first : Entry} (sound : first.Sound) :
    Keeps Tree.Sound (dictionaryFrom expect first) :=
  .bind (keeps_entriesFrom (List.forall_mem_singleton.mpr sound)) fun _ all => .after fun _ =>
    .pure (Tree.sound_dictionary.mpr all)

theorem keeps_braces : Keeps Tree.Sound (braces expect) := by
  have empty : (Tree.dictionary []).Sound :=
    Tree.sound_dictionary.mpr (List.forall_mem_nil _)
  refine .after fun _ => .after fun _ => .ite (.after fun _ => .pure empty) ?_
  refine .after fun _ => .ite (.after fun _ => .after fun _ => .pure empty) ?_
  refine .after fun _ => .ite ?_ (.bind (keeps_element "\x7d") fun tree one => ?_)
  · exact .bind keeps_spread fun ⟨_, _⟩ sound => keeps_dictionaryFrom (sound_spread sound).1
  refine .after fun _ => .ite ?_ (.after fun _ => .ite ?_ ?_)
  · refine .bind keeps_pairValue fun value other => .after fun _ => .ite ?_ ?_
    · exact .after fun _ => .after fun _ => keeps_other "DictComp"
    · exact keeps_dictionaryFrom (sound_pair one other)
  · exact .after fun _ => .after fun _ => keeps_other "SetComp"
  · exact .after fun _ => .after fun _ => keeps_other "Set"

theorem keeps_keywordArgument : Keeps Argument.Sound keywordArgument := by
  refine .token fun token spelled => Keeps.at ?_
  refine .bind (keeps_require fun name => spelled.name?) fun name named => ?_
  refine .after fun _ => .after fun _ => ?_
  exact .bind (keeps_expression _) fun value sound => .pure ⟨named, sound⟩

theorem keeps_argument : Keeps Argument.Sound argument := by
  refine .after fun _ => .ite ?_ (.after fun _ => .ite ?_ ?_)
  · exact .bind keeps_spread fun ⟨_, _⟩ sound => .pure (sound_spread sound).2
  · exact .bind keeps_splat fun _ sound => .pure ⟨trivial, sound⟩
  · refine .orElse keeps_keywordArgument (.bind (keeps_expression _) fun _ sound => ?_)
    exact .pure ⟨trivial, sound⟩

theorem keeps_argumentsFrom {read : List Argument} (before : ∀ argument ∈ read, argument.Sound) :
    Keeps (fun arguments => ∀ argument ∈ arguments, argument.Sound) (argumentsFrom read) := by
  refine .loop (fun arguments => ∀ argument ∈ arguments, argument.Sound) ?_ before
  intro read before
  refine .after fun gap => .after fun _ => ?_
  have spaced := List.forall_mem_append.mpr ⟨before, sound_triviaArguments gap⟩
  refine .ite (.pure spaced) (.after fun _ => .after fun gap' => .after fun _ => ?_)
  have apart := List.forall_mem_append.mpr ⟨spaced, sound_triviaArguments gap'⟩
  refine .ite (.pure apart) (.bind keeps_argument fun next one => .pure ?_)
  exact List.forall_mem_append.mpr ⟨apart, List.forall_mem_singleton.mpr one⟩

theorem keeps_argumentList :
    Keeps (fun arguments => ∀ argument ∈ arguments, argument.Sound) argumentList := by
  refine .after fun gap => .after fun _ => .ite (.pure (sound_triviaArguments gap)) ?_
  refine .after fun _ => .ite ?_ (.bind keeps_argument fun first one => ?_)
  · refine .after fun _ => .after fun gap' => .after fun _ => .ite (.pure ?_) .fail
    exact List.forall_mem_append.mpr ⟨sound_triviaArguments gap, sound_triviaArguments gap'⟩
  · exact keeps_argumentsFrom (List.forall_mem_append.mpr
      ⟨sound_triviaArguments gap, List.forall_mem_singleton.mpr one⟩)

theorem keeps_call {func : Tree} (caller : func.Sound) : Keeps Tree.Sound (call expect func) := by
  refine .after fun _ => .bind (.orElse ?_ ?_) fun tree sound => .after fun _ => .pure sound
  · exact .bind keeps_argumentList fun arguments all => .pure (Tree.sound_call.mpr ⟨caller, all⟩)
  · exact .after fun _ => .pure (Tree.sound_generatorCall.mpr caller)

theorem keeps_sliceFrom : Keeps Tree.Sound sliceFrom := by
  refine .after fun _ => .after fun _ => .after fun _ => .ite ?_ (keeps_other "Slice")
  exact .after fun _ => .after fun _ => keeps_other "Slice"

theorem keeps_index : Keeps Tree.Sound index := by
  refine .after fun _ => .ite keeps_sliceFrom (.bind (keeps_expression _) fun first one => ?_)
  exact .after fun _ => .ite keeps_sliceFrom (.pure one)

theorem keeps_indicesFrom {read : List Tree} (before : ∀ tree ∈ read, tree.Sound) :
    Keeps (fun trees => ∀ tree ∈ trees, tree.Sound) (indicesFrom read) := by
  refine .loop (fun trees => ∀ tree ∈ trees, tree.Sound) ?_ before
  intro read before
  refine .after fun _ => .ite (.pure before) (.after fun _ => .after fun _ => ?_)
  refine .ite (.pure before) (.bind keeps_index fun tree one => .pure ?_)
  exact List.forall_mem_append.mpr ⟨before, List.forall_mem_singleton.mpr one⟩

theorem keeps_subscript {value : Tree} (owner : value.Sound) :
    Keeps Tree.Sound (subscript expect value) := by
  refine .after fun _ => .bind keeps_index fun first one => ?_
  refine .bind (keeps_indicesFrom (List.forall_mem_nil _)) fun more all => .after fun _ => ?_
  exact .pure (Tree.sound_subscript.mpr ⟨⟨owner, one⟩, all⟩)

/-! ### Operators -/

theorem keeps_trailer {tree : Tree} (sound : tree.Sound) :
    Keeps Tree.Sound (trailer expect tree) := by
  refine .after fun _ => .ite ?_ (.after fun _ => .ite (keeps_call sound) (keeps_subscript sound))
  exact .after fun _ => .bind keeps_identifier fun attr named =>
    .pure (Tree.sound_attribute.mpr ⟨named, sound⟩)

theorem keeps_trailers {tree : Tree} (sound : tree.Sound) :
    Keeps Tree.Sound (trailers expect tree) := by
  refine .loop Tree.Sound ?_ sound
  intro tree sound
  refine .after fun _ => .ite ?_ (.pure sound)
  exact .bind (keeps_trailer sound) fun tree sound => .pure sound

theorem keeps_leaf {tree : Tree} (sound : tree.Sound) : Keeps Tree.Sound (leaf expect tree) :=
  .after fun _ => .pure sound

theorem keeps_atomBody : Keeps Tree.Sound (atomBody expect) := by
  refine .token fun token spelled => Keeps.at ?_
  split
  · exact keeps_leaf (.leaf rfl trivial)
  · exact keeps_leaf (.leaf rfl trivial)
  · exact keeps_leaf (.leaf rfl trivial)
  · refine .bind (keeps_require fun name => spelled.name?) fun name named => ?_
    exact keeps_leaf (Tree.sound_name.mpr named)
  · exact keeps_leaf (.leaf rfl trivial)
  · exact keeps_leaf (.leaf rfl trivial)
  · exact keeps_strings
  · exact keeps_leaf (.leaf rfl trivial)
  · exact keeps_group
  · exact keeps_listDisplay
  · exact keeps_braces
  · have starred : Tree.starred.Sound := .leaf rfl trivial
    refine .after fun _ => .ite (.after fun _ => .after fun _ => .after fun _ => .ite ?_ ?_) .fail
    · exact keeps_leaf starred
    · exact .after fun _ => .after fun _ => .pure starred
  · exact .fail

theorem keeps_trailed : Keeps Tree.Sound (trailed expect) := by
  have first : Keeps Tree.Sound (atom expect) := .call (.atom expect)
  exact .bind first fun _ sound => keeps_trailers sound

theorem keeps_nameFrom (rank : Nat) {name : String} (named : name ≠ "") :
    Keeps Tree.Sound (nameFrom rank expect name) := by
  refine .after fun _ => .ite (.after fun _ => keeps_other "Await") (.ite ?_ ?_)
  · exact .after fun _ => .after fun _ => keeps_other "NamedExpr"
  · exact keeps_trailers (Tree.sound_name.mpr named)

theorem keeps_operand (rank : Nat) : Keeps Tree.Sound (operand rank expect) := by
  refine .token fun token spelled => Keeps.at ?_
  split
  · exact .ite (.after fun _ => .after fun _ => keeps_other "UnaryOp") keeps_trailed
  · refine .ite (.ite ?_ .fail) (.ite (.ite ?_ .fail) ?_)
    · exact .after fun _ => .after fun _ => keeps_other "UnaryOp"
    · exact .after fun _ => .after fun _ => keeps_other "Lambda"
    · split
      next name found => exact .after fun _ => keeps_nameFrom rank (spelled.name? found)
      · exact keeps_trailed
  · exact keeps_trailed

/-- Links of a comparison that are sound and compare something. -/
def Linked (links : List Link) : Prop :=
  (∀ link ∈ links, link.Sound) ∧ ∃ op operand, Link.step op operand ∈ links

theorem linked_append {read : List Link} (before : ∀ link ∈ read, link.Sound) (gap : List Trivia)
    (op : Syntax.CompareOperator) {operand : Tree} (sound : operand.Sound) :
    Linked (read ++ gap.map Link.trivia ++ [.step op operand]) := by
  refine ⟨?_, op, operand, by simp⟩
  have trivial : ∀ link ∈ gap.map Link.trivia, link.Sound := by
    intro link member
    obtain ⟨kind, -, rfl⟩ := List.mem_map.mp member
    exact List.forall_mem_nil _
  have spaced := List.forall_mem_append.mpr ⟨before, trivial⟩
  exact List.forall_mem_append.mpr ⟨spaced, List.forall_mem_singleton.mpr sound⟩

/-- Where a comparison operator starts there is a link. -/
theorem keepsAt_linksFrom {token : Token} (starts : startsComparison token = true) :
    KeepsAt token Linked (linksFrom expect []) := by
  have link {read : List Link} (before : ∀ link ∈ read, link.Sound) :
      Keeps (Turn.Holds Linked Linked) (do
        let leading ← Parser.gap
        let op ← compareOperator
        let trailing ← Parser.gap
        let tree ← expression Rank.primary expect
        return .again (read ++ (leading ++ trailing).map Link.trivia ++ [.step op tree])) := by
    refine .after fun leading => .after fun op => .after fun trailing => ?_
    exact .bind (keeps_expression _) fun tree sound => .pure (linked_append before _ op sound)
  refine .loop Linked ?_ ?_
  · refine .token ?_
    rw [if_pos starts]
    exact (link (List.forall_mem_nil _)).at
  · intro read linked
    exact .after fun token => .ite (link linked.1) (.pure linked)

theorem keeps_operators (rank : Nat) {left : Tree} (sound : left.Sound) :
    Keeps Tree.Sound (operators rank expect left) := by
  refine .loop Tree.Sound ?_ sound
  intro left sound
  have rest (right : Nat) {make : Tree → Tree} (made : ∀ tree, tree.Sound → (make tree).Sound) :
      Keeps (Turn.Holds Tree.Sound Tree.Sound) (do
        Parser.advance .operand
        let tree ← expression right expect
        return .again (make tree)) :=
    .after fun _ => .bind (keeps_expression right) fun tree sound => .pure (made tree sound)
  refine Keeps.token fun token _ => ?_
  dsimp only
  split
  next op _ =>
    split
    · exact Keeps.at (.pure sound)
    · exact (rest _ fun right other => Tree.sound_binary.mpr ⟨sound, other⟩).at
  · split
    next comparing =>
      have starts : startsComparison token = true := by simp_all
      exact .bind (keepsAt_linksFrom starts) fun links linked =>
        .pure (Tree.sound_comparison.mpr ⟨linked.2, sound, linked.1⟩)
    refine Keeps.at (.ite ?_ (.ite ?_ (.ite ?_ (.ite ?_ (.pure sound)))))
    · exact rest _ fun right other => Tree.sound_boolean.mpr ⟨sound, other⟩
    · exact rest _ fun right other => Tree.sound_boolean.mpr ⟨sound, other⟩
    · exact rest _ fun _ _ => .leaf rfl trivial
    · exact .after fun _ => .after fun _ => .after fun _ => .after fun _ =>
        .pure (Tree.Sound.leaf rfl trivial)

theorem keeps_expressionBody (rank : Nat) : Keeps Tree.Sound (expressionBody rank expect) :=
  .bind (keeps_operand rank) fun _ sound => keeps_operators rank sound

theorem keeps_afterNameBody (rank : Nat) {name : String} (named : name ≠ "") :
    Keeps Tree.Sound (afterNameBody rank expect name) :=
  .bind (keeps_nameFrom rank named) fun _ sound => keeps_operators rank sound

theorem keeps_iterableBody : Keeps Tree.Sound iterableBody := by
  refine .after fun _ => .ite ?_ (keeps_expression _)
  exact .after fun _ => .after fun _ => keeps_other "Lambda"

/-! ### Parentheses are passed -/

section Passing

variable {calls : (rule : Rule) → Lexeme → Outcome rule.Result} {lexeme stop : Lexeme}

theorem run_symbol {text : String} {value : Unit}
    (ran : (symbol text expect).run calls lexeme = ⟨some value, stop⟩) :
    lexeme.token = .symbol text ∧ stop = lexeme.next expect := by
  change (if (lexeme.token == .symbol text) = true then Parser.advance expect
    else Parser.fail).run calls lexeme = _ at ran
  split at ran
  next here =>
    rw [Parser.run] at ran
    split at ran
    · exact ⟨by simpa using here, (Outcome.mk.inj ran).2.symm⟩
    · cases ran
  · cases ran

theorem passed_next {text : String} (here : lexeme.token = .symbol text) :
    (lexeme.next expect).before.length < lexeme.start.length := by
  rw [Lexeme.next, Input.next, Input.nextOf, before_nextLexeme]
  exact lexeme.passes (by rw [here]; rfl)

/-- What has been passed stays passed while a parser goes on. -/
theorem passed_run {α : Type} (trust : Rule.Trusted calls) {parser : Parser α} {value : α}
    {place : Lexeme} (passed : place.before.length < lexeme.start.length)
    (ran : parser.run calls place = ⟨some value, stop⟩) :
    stop.before.length < lexeme.start.length := by
  have reads := Parser.reads_run trust.reads parser place
  rw [ran] at reads
  exact reads.onward.before.length_le.trans_lt passed

theorem passes_atomBody (trust : Rule.Trusted calls) {tree : Tree}
    (opens : lexeme.token = .symbol "(")
    (ran : (atomBody expect).run calls lexeme = ⟨some tree, stop⟩) :
    stop.before.length < lexeme.start.length := by
  rw [atomBody, Parser.run_token_bind, opens] at ran
  obtain ⟨_, place, front, back⟩ := Parser.run_bind_iff.mp (show (group expect).run _ _ = _ from ran)
  obtain ⟨here, rfl⟩ := run_symbol front
  exact passed_run trust (passed_next here) back

theorem passes_expressionBody (trust : Rule.Trusted calls) {rank : Nat} {tree : Tree}
    (opens : lexeme.token = .symbol "(")
    (ran : (expressionBody rank expect).run calls lexeme = ⟨some tree, stop⟩) :
    stop.before.length < lexeme.start.length := by
  obtain ⟨left, middle, front, back⟩ := Parser.run_bind_iff.mp ran
  refine passed_run trust ?_ back
  rw [operand, Parser.run_token_bind, opens] at front
  obtain ⟨_, place, first, rest⟩ :=
    Parser.run_bind_iff.mp (show (trailed expect).run _ _ = _ from front)
  exact passed_run trust (trust.passes (.atom expect) _ _ _ first opens) rest

end Passing

end Grammar

end Respell.Source
