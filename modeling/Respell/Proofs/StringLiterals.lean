import Respell.Proofs.Escapes
import Respell.Proofs.LoneAtom
import Respell.Proofs.StringBodies

/-!
String literals that interpolate nothing, alone or side by side, and the text that they are read
as: raw bodies as they stand, other bodies with their escapes resolved. Two kinds of literals are not
read as what they denote. Braces that are doubled in a format string stay doubled, and a raw body
loses the escaped pairs at its end if nothing else stands between them and its last piece.
-/

set_option autoImplicit false

namespace Respell.Source

open Respell.Text (Numeral)

/-- Letters that may stand before a string of text. -/
def stringLetters : List (List Char) :=
  [[], ['r'], ['R'], ['u'], ['U'], ['f'], ['F'], ['r', 'f'], ['r', 'F'], ['R', 'f'], ['R', 'F'],
   ['f', 'r'], ['f', 'R'], ['F', 'r'], ['F', 'R']]

/-- How a string of text starts: letters, and a mark, once or three times. -/
structure Opener where
  letters : List Char
  allowed : letters ∈ stringLetters
  mark : Char
  known : mark = '\'' ∨ mark = '"'
  triple : Bool

def Opener.quote (opener : Opener) : Quote where
  mark := opener.mark
  isMark_mark := by rcases opener.known with same | same <;> rw [same] <;> rfl
  triple := opener.triple
  raw := opener.letters.any ['r', 'R'].contains
  bytes := opener.letters.any ['b', 'B'].contains
  format := opener.letters.any ['f', 'F', 't', 'T'].contains

/-- A string literal that interpolates nothing. -/
structure StringLiteral extends Opener where
  body : List Char
  enclosed : toOpener.quote.Encloses body

/-- A text with one brace in the place of each doubled one. -/
def halveBraces : List Char → List Char
  | [] => []
  | [c] => [c]
  | c :: d :: rest =>
    if (c == '{' || c == '}') && c == d then c :: halveBraces rest else c :: halveBraces (d :: rest)

namespace StringLiteral

variable (literal : StringLiteral)

/-- The literal as it is written. -/
def text : List Char :=
  literal.letters ++ (literal.quote.delimiter ++ (literal.body ++ literal.quote.delimiter))

/-- The value that a literal denotes: escapes count unless it is raw, and in a format string a
doubled brace stands for a single one. -/
def Denotes (value : List Char) : Prop :=
  let body := if literal.quote.format then halveBraces literal.body else literal.body
  if literal.quote.raw then value = body else Source.Denotes body value

/-- The body without what is lost at its end. -/
def kept : List Char := literal.body.take (literal.body.length - literal.quote.lost literal.body)

/-- The value that a literal is read as. -/
def IsReadAs (value : List Char) : Prop :=
  if literal.quote.raw then value = literal.kept else Source.Denotes literal.body value

/-- Whether no brace is doubled in a format string and nothing is lost at the end of the body. -/
def IsPlain : Prop :=
  (literal.quote.format = true → '{' ∉ literal.body ∧ '}' ∉ literal.body) ∧
    literal.quote.lost literal.body = 0

/-- The literal as it is parsed. -/
def parsed : Literal := ⟨literal.quote.raw, literal.kept, false⟩

end StringLiteral

theorem halveBraces_of_not_mem {body : List Char} (opening : '{' ∉ body) (closing : '}' ∉ body) :
    halveBraces body = body := by
  fun_induction halveBraces body with
  | case1 => rfl
  | case2 => rfl
  | case3 c d rest doubled =>
      simp only [Bool.and_eq_true, Bool.or_eq_true, beq_iff_eq] at doubled
      rcases doubled.1 with rfl | rfl
      · simp at opening
      · simp at closing
  | case4 c d rest _ ih =>
      rw [ih (fun member => opening (.tail _ member)) fun member => closing (.tail _ member)]

theorem all_stringLetters : ∀ letters ∈ stringLetters,
    letters.all Quote.isFlag = true ∧ letters.any ['b', 'B'].contains = false := by
  decide

namespace StringLiteral

variable {literal : StringLiteral} {value : List Char}

/-- Plain literals are read as what they denote. -/
theorem isReadAs_of_denotes (plain : literal.IsPlain) (denotes : literal.Denotes value) :
    literal.IsReadAs value := by
  obtain ⟨braces, lost⟩ := plain
  have body : (if literal.quote.format then halveBraces literal.body else literal.body) =
      literal.body := by
    split
    next format => exact halveBraces_of_not_mem (braces format).1 (braces format).2
    · rfl
  have whole : literal.kept = literal.body := by
    rw [kept, lost, Nat.sub_zero, List.take_length]
  unfold Denotes at denotes
  unfold IsReadAs
  rw [body] at denotes
  rw [whole]
  exact denotes

theorem value?_parsed (reads : literal.IsReadAs value) : literal.parsed.value? = some value := by
  unfold IsReadAs at reads
  unfold Literal.value? parsed
  cases raw : literal.quote.raw with
  | true =>
      rw [raw, if_pos rfl] at reads
      simp [reads]
  | false =>
      rw [raw, if_neg (by decide)] at reads
      have whole : literal.kept = literal.body := by
        simp [kept, Quote.lost, raw]
      simp [whole, unescape_of_denotes reads]

theorem ofText (literal : StringLiteral) : literal.quote.OfText :=
  ⟨literal.known, (all_stringLetters _ literal.allowed).2⟩

/-! ### Opening -/

theorem head_ne_mark {c : Char} {body : List Char} (same : literal.body = c :: body)
    (single : literal.triple = false) : c ≠ literal.mark := by
  have enclosed := literal.enclosed
  rw [same] at enclosed
  cases enclosed with
  | plain _ _ _ inner =>
      intro mark
      have triple : literal.triple = true := (inner mark).1
      rw [single] at triple
      cases triple
  | brace brace =>
      rintro rfl
      have none : literal.quote.isBrace literal.mark = false := isBrace_mark literal.ofText
      rw [none] at brace
      cases brace
  | pair | backslash => exact (mark_ne_backslash literal.ofText).symm

/-- What follows the first mark shows whether there are three. -/
theorem triple_eq {rest : List Char}
    (apart : literal.triple = false → literal.body = [] → rest.head? ≠ some literal.mark) :
    ∃ more, literal.text ++ rest = literal.letters ++ literal.mark :: more ∧
      [literal.mark, literal.mark].isPrefixOf more = literal.triple := by
  cases triple : literal.triple with
  | true =>
      have delimiter : literal.quote.delimiter = [literal.mark, literal.mark, literal.mark] :=
        if_pos triple
      refine ⟨literal.mark :: literal.mark :: (literal.body ++ (literal.quote.delimiter ++ rest)),
        ?_, ?_⟩
      · simp [text, delimiter]
      · simp [List.isPrefixOf]
  | false =>
      have delimiter : literal.quote.delimiter = [literal.mark] :=
        if_neg (Bool.eq_false_iff.mp triple)
      refine ⟨literal.body ++ literal.mark :: rest, ?_, ?_⟩
      · simp [text, delimiter]
      · cases same : literal.body with
        | nil =>
            have other := apart triple same
            cases rest with
            | nil => simp [List.isPrefixOf]
            | cons c rest =>
                have differs : literal.mark ≠ c := fun equal => other (by rw [equal]; rfl)
                simp [List.isPrefixOf, differs]
        | cons c body =>
            have differs := head_ne_mark same triple
            simp [List.isPrefixOf, differs.symm]

theorem open?_text {rest : List Char}
    (apart : literal.triple = false → literal.body = [] → rest.head? ≠ some literal.mark) :
    Quote.open? (literal.text ++ rest) =
      some (literal.quote, literal.letters.length + literal.quote.delimiter.length) := by
  obtain ⟨more, same, triple⟩ := literal.triple_eq apart
  have flags : ∀ c ∈ literal.letters, Quote.isFlag c = true :=
    List.all_eq_true.mp (all_stringLetters _ literal.allowed).1
  have mark : Quote.isFlag literal.mark = false ∧ Quote.isMark literal.mark = true ∧
      (literal.mark != '\x60') = true := by
    rcases literal.known with quote | quote <;> rw [quote] <;> decide
  have taken : (literal.text ++ rest).takeWhile Quote.isFlag = literal.letters := by
    rw [same, List.takeWhile_append_of_pos flags, List.takeWhile_cons, mark.1]
    exact List.append_nil _
  have dropped : (literal.text ++ rest).drop literal.letters.length = literal.mark :: more := by
    rw [same, List.drop_left]
  have closing : literal.quote.delimiter.length = if literal.triple then 3 else 1 := by
    unfold Quote.delimiter
    change (if literal.triple then [_, _, _] else [_]).length = _
    split <;> rfl
  simp only [Quote.open?, taken, dropped, dif_pos mark.2.1, triple, closing, mark.2.2,
    Bool.true_and]
  rfl

/-- After the first marks come the body and what follows it. -/
theorem drop_text (literal : StringLiteral) (rest : List Char) :
    (literal.text ++ rest).drop (literal.letters.length + literal.quote.delimiter.length) =
      literal.body ++ (literal.quote.delimiter ++ rest) := by
  have split : literal.text ++ rest = literal.letters ++ literal.quote.delimiter ++
      (literal.body ++ (literal.quote.delimiter ++ rest)) := by
    simp [text]
  rw [split, ← List.length_append, List.drop_left]

end StringLiteral

theorem token_ne_quote (text : List Char) (quote : Quote) : (token text).1 ≠ .quote quote := by
  unfold token
  repeat' split
  all_goals simp

/-- A quote is opened where its text stands. -/
theorem open?_of_quote {input : Input} {expect : Expect} {quote : Quote}
    (opens : (input.next expect).token = .quote quote) :
    ∃ length, Quote.open? (input.next expect).start = some (quote, length) ∧
      (input.next expect).after.rest = (input.next expect).start.drop length := by
  have found : Lexeme.Found expect.valid input.rest input (input.next expect) :=
    found_nextLexeme List.suffix_rfl
  generalize input.next expect = lexeme at found opens
  cases found with
  | newline | indent | dedent => cases opens
  | @quote rest start gap quote' length within opened suffix =>
      obtain rfl : quote' = quote := Token.quote.inj opens
      exact ⟨length, opened, rfl⟩
  | @ordinary rest text gap within suffix => exact absurd opens (token_ne_quote text quote)

/-- Literals that stand side by side from a place on, up to a lexeme that opens no further one. What
follows the first mark of an empty literal is no mark again. -/
inductive SideBySide (expect : Expect) : Expect → Input → List StringLiteral → Lexeme → Prop
  | nil {place : Expect} {input : Input} : (∀ quote, (input.next place).token ≠ .quote quote) →
      SideBySide expect place input [] (input.next place)
  | cons {place : Expect} {input : Input} {quote : Quote} {literal : StringLiteral}
      {rest : List Char} {literals : List StringLiteral} {last : Lexeme} :
      (input.next place).token = .quote quote → (input.next place).start = literal.text ++ rest →
      (literal.triple = false → literal.body = [] → rest.head? ≠ some literal.mark) →
      SideBySide expect expect ⟨rest, (input.next place).after.indents, false⟩ literals last →
      SideBySide expect place input (literal :: literals) last

namespace Grammar

theorem read_literal {expect place : Expect} {input : Input} {quote : Quote}
    {literal : StringLiteral} {rest : List Char}
    (opens : (input.next place).token = .quote quote)
    (written : (input.next place).start = literal.text ++ rest)
    (apart : literal.triple = false → literal.body = [] → rest.head? ≠ some literal.mark) :
    (Rule.literal expect).read (input.next place) =
      ⟨some literal.parsed,
        (Input.mk rest (input.next place).after.indents false).next expect⟩ := by
  obtain ⟨length, opened, after⟩ := open?_of_quote opens
  rw [written] at opened after
  obtain ⟨rfl, rfl⟩ := Prod.mk.inj (Option.some.inj (opened.symm.trans (literal.open?_text apart)))
  rw [literal.drop_text] at after
  have body := stringBody_encloses literal.ofText
    (Rule.inner (.literal expect) (input.next place) .interpolated) rest
    (input.next place).after.indents (input.next place).after.inFormat literal.enclosed []
  rw [← after] at body
  rw [Rule.read_eq]
  change literalBody _ expect _ = _
  rw [literalBody, opens]
  dsimp only
  rw [body]
  rfl

/-- What follows a literal is further on. -/
theorem start_next_lt {lexeme : Lexeme} {literal : StringLiteral} {rest : List Char}
    (written : lexeme.start = literal.text ++ rest) (indents : List Nat) (expect : Expect) :
    ((Input.mk rest indents false).next expect).start.length < lexeme.start.length := by
  have within : ((Input.mk rest indents false).next expect).start <:+ rest := start_nextLexeme
  have marks : 0 < literal.quote.delimiter.length := by
    unfold Quote.delimiter
    split <;> simp
  have further := within.length_le
  rw [written]
  simp only [StringLiteral.text, List.length_append]
  omega

theorem run_literalsFrom_quote {calls : (rule : Rule) → Lexeme → Outcome rule.Result}
    {expect : Expect} {lexeme next : Lexeme} {quote : Quote} {one : Literal}
    (opens : lexeme.token = .quote quote)
    (reads : calls (.literal expect) lexeme = ⟨some one, next⟩)
    (further : next.start.length < lexeme.start.length) (read : List Literal) :
    (literalsFrom expect read).run calls lexeme =
      (literalsFrom expect (read ++ [one])).run calls next := by
  refine Parser.run_loop_again ?_ further
  have step : Parser.run calls (do
      let next ← literal expect
      return Turn.again (read ++ [next]) : Parser (Turn (List Literal) (List Literal))) lexeme =
      ⟨some (.again (read ++ [one])), next⟩ :=
    Parser.run_bind_iff.mpr ⟨one, next, reads, rfl⟩
  obtain ⟨before, gap, start, token, after, _, _, _, _, _⟩ := lexeme
  subst opens
  exact step

/-- The literals after the first one are read in order. -/
theorem run_literalsFrom {expect place : Expect} {input : Input} {literals : List StringLiteral}
    {first last : Lexeme} (beside : SideBySide expect place input literals last)
    (further : (input.next place).start.length < first.start.length) (read : List Literal) :
    (literalsFrom expect read).run (Rule.inner (.atom expect) first) (input.next place) =
      ⟨some (read ++ literals.map StringLiteral.parsed), last⟩ := by
  induction beside generalizing read with
  | @nil place input none =>
      refine Parser.run_loop_done ?_
      rw [List.map_nil, List.append_nil]
      generalize input.next place = lexeme at none
      obtain ⟨before, gap, start, token, after, _, _, _, _, _⟩ := lexeme
      cases token with
      | quote quote => exact absurd rfl (none quote)
      | _ => rfl
  | @cons place input quote literal rest literals last opens written apart _ ih =>
      have inside : Rule.inner (.atom expect) first (.literal expect) (input.next place) =
          (Rule.literal expect).read (input.next place) := by
        rw [Rule.inner, if_pos (.inl further)]
      have next_further := start_next_lt written (input.next place).after.indents expect
      have one := inside.trans (read_literal opens written apart)
      rw [run_literalsFrom_quote opens one next_further, ih (next_further.trans further),
        List.append_assoc]
      rfl

/-- Literals side by side are one atom. -/
theorem read_atom_strings {expect place : Expect} {input : Input} {literal : StringLiteral}
    {literals : List StringLiteral} {last : Lexeme}
    (beside : SideBySide expect place input (literal :: literals) last) :
    (Rule.atom expect).read (input.next place) =
      ⟨some (.strings literal.parsed (literals.map StringLiteral.parsed)), last⟩ := by
  cases beside with
  | @cons _ _ quote _ rest _ _ opens written apart more =>
      have lower : (Rule.literal expect).height < (Rule.atom expect).height := Nat.zero_lt_one
      have inside := (Rule.inner_of_lower lower (input.next place)).trans
        (read_literal opens written apart)
      have next_further := start_next_lt written (input.next place).after.indents expect
      have read : (strings expect).run (Rule.inner (.atom expect) (input.next place))
          (input.next place) =
          ⟨some (.strings literal.parsed (literals.map StringLiteral.parsed)), last⟩ :=
        Parser.run_bind_iff.mpr ⟨_, _, inside,
          Parser.run_bind_iff.mpr ⟨_, _, run_literalsFrom more next_further [], rfl⟩⟩
      rw [Rule.read_eq]
      change (atomBody expect).run _ _ = _
      clear inside written more next_further
      generalize input.next place = lexeme at opens read
      obtain ⟨before, gap, start, token, after, _, _, _, _, _⟩ := lexeme
      subst opens
      exact read

end Grammar

theorem readExpr_strings {literals : List StringLiteral} {literal : StringLiteral}
    {values : List (List Char)}
    (reads : List.Forall₂ StringLiteral.IsReadAs (literal :: literals) values) :
    readExpr (.strings literal.parsed (literals.map StringLiteral.parsed)) =
      .ok (.constant (.str (String.ofList values.flatten))) := by
  have all : ∀ {literals : List StringLiteral} {values : List (List Char)},
      List.Forall₂ StringLiteral.IsReadAs literals values →
      (literals.map StringLiteral.parsed).mapM Literal.value? = some values := by
    intro literals values reads
    induction reads with
    | nil => rfl
    | cons first _ ih => simp [StringLiteral.value?_parsed first, ih]
  have joined := all reads
  rw [List.map_cons] at joined
  rw [readExpr, readStrings, joined]

/-! ### Whole texts -/

/-- What may stand between two literals of one line. -/
inductive Blanks : List Char → Prop
  | nil : Blanks []
  | space {c : Char} {rest : List Char} : c = ' ' ∨ c = '\t' → Blanks rest → Blanks (c :: rest)
  | joined {rest : List Char} : Blanks rest → Blanks ('\\' :: '\n' :: rest)

/-- A text of nothing but literals, with blanks between them. -/
inductive Abreast : List Char → List StringLiteral → Prop
  | one (literal : StringLiteral) : Abreast literal.text [literal]
  | cons {literal : StringLiteral} {gap rest : List Char} {literals : List StringLiteral} :
      Blanks gap →
      (literal.triple = false → literal.body = [] → (gap ++ rest).head? ≠ some literal.mark) →
      Abreast rest literals → Abreast (literal.text ++ (gap ++ rest)) (literal :: literals)

/-- Characters that a literal may start with. -/
def literalStarts : List Char := ['r', 'R', 'u', 'U', 'f', 'F', '\'', '"']

theorem exists_start (literal : StringLiteral) (rest : List Char) :
    ∃ c more, literal.text ++ rest = c :: more ∧ c ∈ literalStarts := by
  have allowed := literal.allowed
  obtain ⟨more, same, -⟩ := exists_delimiter literal.quote
    (literal.body ++ (literal.quote.delimiter ++ rest))
  have split : literal.text ++ rest = literal.letters ++ (literal.quote.delimiter ++
      (literal.body ++ (literal.quote.delimiter ++ rest))) := by
    simp [StringLiteral.text]
  rw [split, same]
  cases letters : literal.letters with
  | nil =>
      refine ⟨_, _, rfl, ?_⟩
      rcases literal.ofText.mark with mark | mark <;> rw [mark] <;> decide
  | cons c letters' =>
      rw [letters] at allowed
      refine ⟨c, _, rfl, ?_⟩
      have heads : ∀ letters ∈ stringLetters, letters.head?.all literalStarts.contains = true := by
        decide
      simpa using heads _ allowed

theorem passBlanks_blanks {gap : List Char} (blanks : Blanks gap) {c : Char}
    (starts : c ∈ literalStarts) (text : List Char) (layout : Bool) (indent : Nat) :
    ∃ indent', passBlanks layout ⟨.blank, false, indent, none⟩ (gap ++ c :: text) =
      some ⟨false, indent', none, c :: text⟩ := by
  induction blanks generalizing indent with
  | nil =>
      refine ⟨indent, ?_⟩
      fin_cases starts <;> rfl
  | space either _ ih =>
      rcases either with rfl | rfl
      · exact ih (indent + 1)
      · exact ih (indent + 8)
  | joined _ ih => exact ih indent

/-- A literal is opened where it stands, after blanks. -/
theorem next_of_literal {gap rest : List Char} {literal : StringLiteral} (blanks : Blanks gap)
    (apart : literal.triple = false → literal.body = [] → rest.head? ≠ some literal.mark)
    (indents : List Nat) (inFormat : Bool) (place : Expect) :
    ∃ lexeme : Lexeme,
      (Input.mk (gap ++ (literal.text ++ rest)) indents inFormat).next place = lexeme ∧
      lexeme.token = .quote literal.quote ∧ lexeme.start = literal.text ++ rest ∧
      lexeme.after.indents = indents ∧ lexeme.gap = [] := by
  obtain ⟨c, more, same, starts⟩ := exists_start literal rest
  obtain ⟨indent, reached⟩ := passBlanks_blanks blanks starts more place.valid.layout 0
  rw [← same] at reached
  have marked : (Input.mk (gap ++ (literal.text ++ rest)) indents inFormat).mark place.valid =
      .quote literal.quote (literal.text ++ rest)
        (literal.letters.length + literal.quote.delimiter.length) := by
    unfold Input.mark
    dsimp only [Scan.fresh]
    rw [reached]
    simp only [Input.markAt, Bool.false_and, Bool.false_eq_true, if_false, Option.isSome_none,
      literal.open?_text apart]
  exact ⟨_, nextLexeme_quote marked, rfl, rfl, rfl, rfl⟩

theorem sideBySide_of_abreast {source : List Char} {literals : List StringLiteral}
    (abreast : Abreast source literals) {gap : List Char} (blanks : Blanks gap) (place : Expect) :
    SideBySide .lineEnd place ⟨gap ++ source, [], false⟩ literals
      ((Input.mk [] [] false).next .lineEnd) := by
  induction abreast generalizing gap place with
  | one literal =>
      have apart : literal.triple = false → literal.body = [] →
          ([] : List Char).head? ≠ some literal.mark := by simp
      obtain ⟨lexeme, same, opens, written, indents, -⟩ :=
        next_of_literal blanks apart [] false place
      rw [List.append_nil] at same
      refine .cons (same ▸ opens) (same ▸ written) apart ?_
      rw [same, indents]
      refine .nil fun quote => ?_
      rw [next_at_end.1]
      simp
  | @cons literal between rest literals between_blanks apart _ ih =>
      obtain ⟨lexeme, same, opens, written, indents, -⟩ :=
        next_of_literal blanks apart [] false place
      refine .cons (same ▸ opens) (same ▸ written) apart ?_
      rw [same, indents]
      exact ih between_blanks .lineEnd

theorem exists_first_literal {source : List Char} {literals : List StringLiteral}
    (abreast : Abreast source literals) :
    ∃ literal more rest, literals = literal :: more ∧ source = literal.text ++ rest ∧
      (literal.triple = false → literal.body = [] → rest.head? ≠ some literal.mark) := by
  cases abreast with
  | one literal => exact ⟨literal, [], [], rfl, (List.append_nil _).symm, by simp⟩
  | @cons literal gap rest literals _ apart _ =>
      exact ⟨literal, literals, gap ++ rest, rfl, rfl, apart⟩

/-- A text of nothing but literals is one string. -/
theorem read_abreast {source : List Char} {literals : List StringLiteral}
    {values : List (List Char)} (abreast : Abreast source literals)
    (reads : List.Forall₂ StringLiteral.IsReadAs literals values) :
    read (String.ofList source) =
      .ok ⟨[.expr (.constant (.str (String.ofList values.flatten)))]⟩ := by
  have beside := sideBySide_of_abreast abreast .nil .operand
  obtain ⟨literal, more, rest, rfl, written, apart⟩ := exists_first_literal abreast
  obtain ⟨c, text, starts, start⟩ := exists_start literal rest
  have marked : withoutOrderMark source = source := by
    rw [written, starts]
    fin_cases start <;> rfl
  obtain ⟨lexeme, next, opens, -, -, bare⟩ := next_of_literal .nil apart [] false .operand
  have begins : (Input.mk (withoutOrderMark (String.ofList source).toList) [] false).next .operand =
      lexeme := by
    rw [String.toList_ofList, marked, written]
    exact next
  have atom := Grammar.read_atom_strings beside
  rw [List.nil_append, written, ← List.nil_append (literal.text ++ rest), next] at atom
  have statement : readExpression (.strings literal.parsed (more.map StringLiteral.parsed)) =
      .ok (.expr (.constant (.str (String.ofList values.flatten)))) := by
    simp only [readExpression, readValue, readExpr_strings reads]
    rfl
  exact read_of_atom begins (opens ▸ .quote _) bare atom statement

/-- Wherever literals stand side by side, they are read as one string of a value, and so is a text
of nothing else. -/
def ReadAsString (literals : List StringLiteral) (value : List Char) : Prop :=
  (∀ (expect place : Expect) (input : Input) (last : Lexeme),
    SideBySide expect place input literals last →
    ∃ tree, (Rule.atom expect).read (input.next place) = ⟨some tree, last⟩ ∧
      readExpr tree = .ok (.constant (.str (String.ofList value)))) ∧
  ∀ source : List Char, Abreast source literals →
    read (String.ofList source) = .ok ⟨[.expr (.constant (.str (String.ofList value)))]⟩

theorem readAsString_flatten {literals : List StringLiteral} (nonempty : literals ≠ [])
    {values : List (List Char)} (reads : List.Forall₂ StringLiteral.IsReadAs literals values) :
    ReadAsString literals values.flatten := by
  obtain ⟨literal, more, rfl⟩ := List.exists_cons_of_ne_nil nonempty
  constructor
  · intro expect place input last beside
    exact ⟨_, Grammar.read_atom_strings beside, readExpr_strings reads⟩
  · intro source abreast
    exact read_abreast abreast reads

/-- Literals side by side are read as one string, of raw bodies without what is lost at their ends
and of other bodies with their escapes resolved. That is what the literals denote, unless a brace is
doubled in a format string or something is lost. -/
theorem readExpr_strings_value {literals : List StringLiteral} (nonempty : literals ≠ []) :
    (∀ values, List.Forall₂ StringLiteral.IsReadAs literals values →
      ReadAsString literals values.flatten) ∧
    (∀ values, (∀ literal ∈ literals, literal.IsPlain) →
      List.Forall₂ StringLiteral.Denotes literals values →
      ReadAsString literals values.flatten) := by
  refine ⟨fun values reads => readAsString_flatten nonempty reads, fun values plain denote => ?_⟩
  have both := (List.forall₂_and_left literals values).mpr ⟨plain, denote⟩
  exact readAsString_flatten nonempty
    (both.imp fun _ _ each => StringLiteral.isReadAs_of_denotes each.1 each.2)

theorem readExpr_strings_value_mixed :
    ∃ first second : StringLiteral, first.text = "Rf'\\d'".toList ∧
      second.text = "u\"\"\"a\"\\x41\"\"\"".toList ∧ first.IsPlain ∧ second.IsPlain ∧
      first.Denotes "\\d".toList ∧ second.Denotes "a\"A".toList ∧
      read "Rf'\\d' u\"\"\"a\"\\x41\"\"\"" = .ok ⟨[.expr (.constant (.str "\\da\"A"))]⟩ := by
  let first : StringLiteral :=
    ⟨⟨['R', 'f'], by decide, '\'', .inl rfl, false⟩, ['\\', 'd'],
      .pair (by decide) (by decide) (fun _ => by decide) .nil⟩
  let second : StringLiteral :=
    ⟨⟨['u'], by decide, '"', .inr rfl, true⟩, ['a', '"', '\\', 'x', '4', '1'],
      .plain (by decide) (by decide) (by decide) (by decide) <|
      .plain (by decide) (by decide) (by decide) (by decide) <|
      .pair (by decide) (by decide) (by decide) <|
      .plain (by decide) (by decide) (by decide) (by decide) <|
      .plain (by decide) (by decide) (by decide) (by decide) .nil⟩
  have plain_first : first.IsPlain := ⟨by decide, by decide⟩
  have plain_second : second.IsPlain := ⟨by decide, by decide⟩
  have denotes_first : first.Denotes "\\d".toList := rfl
  have hex : Numeral 16 ['4', '1'] 'A'.toNat :=
    (Numeral.nil.concat (by decide : 4 < 16) (.inl rfl)).concat (by decide : 1 < 16) (.inl rfl)
  have denotes_second : second.Denotes "a\"A".toList :=
    .plain (by decide) (.plain (by decide) (.hex (by decide) hex .nil))
  have abreast : Abreast (first.text ++ ([' '] ++ second.text)) [first, second] :=
    .cons (.space (.inl rfl) .nil) (by decide) (.one second)
  have value := ((readExpr_strings_value (List.cons_ne_nil first [second])).2
    ["\\d".toList, "a\"A".toList] (by simp [plain_first, plain_second])
    (.cons denotes_first (.cons denotes_second .nil))).2 _ abreast
  exact ⟨first, second, rfl, rfl, plain_first, plain_second, denotes_first, denotes_second, value⟩

/-- Doubled braces of a format string stay doubled, and a raw string of an escaped mark is empty. -/
theorem read_doubled_braces :
    (∃ literal : StringLiteral, literal.text = "f'a\x7b\x7bb\x7d\x7d'".toList ∧
      literal.Denotes "a\x7bb\x7d".toList ∧
      read "f'a\x7b\x7bb\x7d\x7d'" =
        .ok ⟨[.expr (.constant (.str "a\x7b\x7bb\x7d\x7d"))]⟩) ∧
    ∃ literal : StringLiteral, literal.text = "r'\\''".toList ∧ literal.Denotes "\\'".toList ∧
      read "r'\\''" = .ok ⟨[.expr (.constant (.str ""))]⟩ := by
  let braces : StringLiteral :=
    ⟨⟨['f'], by decide, '\'', .inl rfl, false⟩, ['a', '{', '{', 'b', '}', '}'],
      .plain (by decide) (by decide) (by decide) (by decide) <| .brace (by decide) <|
      .plain (by decide) (by decide) (by decide) (by decide) <| .brace (by decide) .nil⟩
  let mark : StringLiteral :=
    ⟨⟨['r'], by decide, '\'', .inl rfl, false⟩, ['\\', '\''],
      .pair (by decide) (by decide) (fun _ => by decide) .nil⟩
  have doubled : braces.IsReadAs ['a', '{', '{', 'b', '}', '}'] :=
    .plain (by decide) <| .plain (by decide) <| .plain (by decide) <| .plain (by decide) <|
      .plain (by decide) <| .plain (by decide) .nil
  have lost : mark.IsReadAs [] := rfl
  have single : braces.Denotes ['a', '{', 'b', '}'] :=
    .plain (by decide) <| .plain (by decide) <| .plain (by decide) <| .plain (by decide) .nil
  exact ⟨⟨braces, rfl, single, read_abreast (.one braces) (.cons doubled .nil)⟩,
    ⟨mark, rfl, rfl, read_abreast (.one mark) (.cons lost .nil)⟩⟩

end Respell.Source
