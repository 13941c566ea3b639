import Respell.Proofs.Cut.Layout

/-!
Lexemes of a text that is cut at a break. The next lexeme of the longer text is the one of the cut
text, or it is lost: it starts after the cut, or nothing can be read from it.
-/

set_option autoImplicit false

namespace Respell.Source

/-! ### One step of reading a lexeme -/

section Step

variable {valid : Valid} {before : List Char} {gap : List Trivia} {input : Input}
  {within : input.rest <:+ before}

theorem nextLexeme_newline (marked : input.mark valid = .newline) :
    input.nextLexeme valid before gap within =
      .border before gap.reverse input .newline input.indents within (by decide)
        (fun _ => input.atBreak_of_mark (.inl marked)) := by
  rw [Input.nextLexeme]
  split <;> rename_i other <;> rw [marked] at other <;> cases other

theorem nextLexeme_indent {width : Nat} (marked : input.mark valid = .indent width) :
    input.nextLexeme valid before gap within =
      .border before gap.reverse input .indent (width :: input.indents) within (by decide)
        (by simp) := by
  rw [Input.nextLexeme]
  split <;> rename_i other <;> rw [marked] at other <;> cases other
  rfl

theorem nextLexeme_dedent (marked : input.mark valid = .dedent) :
    input.nextLexeme valid before gap within =
      .border before gap.reverse input .dedent input.indents within (by decide)
        (fun _ => input.atBreak_of_mark (.inr marked)) := by
  rw [Input.nextLexeme]
  split <;> rename_i other <;> rw [marked] at other <;> cases other

theorem nextLexeme_quote {quote : Quote} {start : List Char} {length : Nat}
    (marked : input.mark valid = .quote quote start length) :
    input.nextLexeme valid before gap within =
      .opening before gap.reverse input quote start length
        ((Input.mark_quote marked).1.trans within) (Input.mark_quote marked).2 := by
  rw [Input.nextLexeme]
  split <;> rename_i other <;> rw [marked] at other <;> cases other
  rfl

theorem nextLexeme_trivia {kind : Trivia} {rest : List Char} (marked : input.mark valid = .nothing)
    (found : trivia? (input.rest.dropWhile isBlank) = some (kind, rest)) :
    input.nextLexeme valid before gap within =
      Input.nextLexeme valid before (kind :: gap) { input with rest }
        ((length_of_trivia? found).2.trans ((List.dropWhile_suffix _).trans within)) := by
  rw [Input.nextLexeme]
  split <;> rename_i other <;> rw [marked] at other <;> cases other
  dsimp only
  split
  next kind' rest' found' =>
    obtain ⟨rfl, rfl⟩ := Prod.mk.inj (Option.some.inj (found.symm.trans found'))
    rfl
  next none => exact absurd (found.symm.trans none) (by simp)

theorem nextLexeme_ordinary (marked : input.mark valid = .nothing)
    (found : trivia? (input.rest.dropWhile isBlank) = none) :
    input.nextLexeme valid before gap within =
      .ordinary before gap.reverse input (input.rest.dropWhile isBlank)
        ((List.dropWhile_suffix _).trans within) := by
  rw [Input.nextLexeme]
  split <;> rename_i other <;> rw [marked] at other <;> cases other
  dsimp only
  split
  next some => exact absurd (found.symm.trans some) (by simp)
  · rfl

/-- What a lexeme can be that is read from an input, after trivia. -/
inductive Lexeme.Found (valid : Valid) (before : List Char) (input : Input) : Lexeme → Prop
  | newline {rest : List Char} {gap : List Trivia} {within : rest <:+ before} {narrow breaks}
    (suffix : rest <:+ input.rest) :
    Found valid before input
      (.border before gap { input with rest } .newline input.indents within narrow breaks)
  | indent {rest : List Char} {gap : List Trivia} {within : rest <:+ before} {narrow breaks}
    (width : Nat) (deeper : valid.indent = true) (suffix : rest <:+ input.rest) :
    Found valid before input
      (.border before gap { input with rest } .indent (width :: input.indents) within narrow breaks)
  | dedent {rest : List Char} {gap : List Trivia} {within : rest <:+ before} {narrow breaks}
    (suffix : rest <:+ input.rest) :
    Found valid before input
      (.border before gap { input with rest } .dedent input.indents within narrow breaks)
  | quote {rest start : List Char} {gap : List Trivia} {quote : Quote} {length : Nat}
    {within : start <:+ before} {opened} (suffix : start <:+ input.rest) :
    Found valid before input (.opening before gap { input with rest } quote start length within opened)
  | ordinary {rest text : List Char} {gap : List Trivia} {within : text <:+ before}
    (suffix : text <:+ input.rest) :
    Found valid before input (.ordinary before gap { input with rest } text within)

theorem deeper_of_mark {width : Nat} (marked : input.mark valid = .indent width) :
    valid.indent = true := by
  unfold Input.mark Input.markAt at marked
  split at marked
  · cases marked
  · split_ifs at marked with deeper
    · simp only [Bool.and_eq_true] at deeper
      exact deeper.1.2
    · split at marked <;> cases marked

theorem found_nextLexeme {rest : List Char} {within : rest <:+ before}
    (suffix : rest <:+ input.rest) :
    Lexeme.Found valid before input
      (Input.nextLexeme valid before gap { input with rest } within) := by
  generalize size : rest.length = n
  induction n using Nat.strongRecOn generalizing rest gap with
  | ind n ih =>
      cases marked : { input with rest : Input }.mark valid with
      | newline =>
          rw [nextLexeme_newline marked]
          exact .newline suffix
      | indent width =>
          rw [nextLexeme_indent marked]
          exact .indent width (deeper_of_mark marked) suffix
      | dedent =>
          rw [nextLexeme_dedent marked]
          exact .dedent suffix
      | quote opened start length =>
          rw [nextLexeme_quote marked]
          exact .quote ((Input.mark_quote marked).1.trans suffix)
      | nothing =>
          have blanks : rest.dropWhile isBlank <:+ rest := List.dropWhile_suffix _
          cases found : trivia? (rest.dropWhile isBlank) with
          | none =>
              rw [nextLexeme_ordinary marked found]
              exact .ordinary (blanks.trans suffix)
          | some passed =>
              obtain ⟨kind, left⟩ := passed
              obtain ⟨shorter, trivia⟩ := length_of_trivia? found
              have less := blanks.length_le
              rw [nextLexeme_trivia marked found]
              exact ih left.length (by omega) (trivia.trans (blanks.trans suffix)) rfl

/-- A lexeme starts no earlier than the text it is read from. -/
theorem start_nextLexeme : (input.nextLexeme valid before gap within).start <:+ input.rest := by
  have found := @found_nextLexeme valid before gap input input.rest within List.suffix_rfl
  generalize Input.nextLexeme valid before gap input within = lexeme at found
  cases found <;> assumption

theorem before_nextLexeme : (input.nextLexeme valid before gap within).before = before := by
  have found := @found_nextLexeme valid before gap input input.rest within List.suffix_rfl
  generalize Input.nextLexeme valid before gap input within = lexeme at found
  cases found <;> rfl

theorem indent_of_nextLexeme (indent : (input.nextLexeme valid before gap within).token = .indent) :
    valid.indent = true := by
  have found := @found_nextLexeme valid before gap input input.rest within List.suffix_rfl
  generalize Input.nextLexeme valid before gap input within = lexeme at found indent
  cases found with
  | indent width deeper suffix => exact deeper
  | newline => cases indent
  | dedent => cases indent
  | quote => cases indent
  | ordinary => exact absurd indent (token_ne_indent _)

/-- The open blocks do not change where no deeper one may start. -/
theorem indents_nextLexeme (noIndent : valid.indent = false) :
    (input.nextLexeme valid before gap within).after.indents = input.indents := by
  have found := @found_nextLexeme valid before gap input input.rest within List.suffix_rfl
  generalize Input.nextLexeme valid before gap input within = lexeme at found
  cases found with
  | indent width deeper suffix => rw [noIndent] at deeper; cases deeper
  | newline => rfl
  | dedent => rfl
  | quote => rfl
  | ordinary => rfl

/-- No format string is open after a lexeme, unless it opens one. -/
def Lexeme.Plain (lexeme : Lexeme) : Prop :=
  (∀ quote, lexeme.token ≠ .quote quote) → lexeme.after.inFormat = false

theorem plain_nextLexeme (closed : input.inFormat = false) :
    (input.nextLexeme valid before gap within).Plain := by
  have found := @found_nextLexeme valid before gap input input.rest within List.suffix_rfl
  generalize Input.nextLexeme valid before gap input within = lexeme at found
  intro noQuote
  cases found with
  | quote => exact absurd rfl (noQuote _)
  | indent => exact closed
  | newline => exact closed
  | dedent => exact closed
  | ordinary => exact closed

end Step

/-! ### Lexemes on both sides of a cut -/

/-- A lexeme of a longer text at the same place. -/
structure Lexeme.Extends (tail : List Char) (full cut : Lexeme) : Prop where
  /-- The text before goes on. -/
  before : full.before = cut.before ++ tail
  /-- The trivia is the same. -/
  gap : full.gap = cut.gap
  /-- The text of the lexeme goes on. -/
  start : full.start = cut.start ++ tail
  /-- The token is the same. -/
  token : full.token = cut.token
  /-- The text after goes on. -/
  after : full.after = cut.after.extend tail
  /-- The longer text does not end here. -/
  going : full.token ≠ .stop

/-- A lexeme that starts after a cut, or that nothing can be read from. -/
def Lexeme.Lost (tail : List Char) (lexeme : Lexeme) : Prop :=
  lexeme.start.length < tail.length ∨ lexeme.token = .unknown

variable {tail : List Char}

/-- What is read from a text that is shorter than what follows a cut is lost. -/
theorem lost_of_short {valid : Valid} {before : List Char} {gap : List Trivia} {input : Input}
    {within : input.rest <:+ before} (short : input.rest.length < tail.length) :
    (input.nextLexeme valid before gap within).Lost tail :=
  .inl (start_nextLexeme.length_le.trans_lt short)

/-- Where only blanks are left before a cut, what is read is lost. -/
theorem lost_of_blanks (cut : atBreak tail = true) (more : tail ≠ []) {valid : Valid}
    {before : List Char} {gap : List Trivia} {input : Input}
    {within : (input.extend tail).rest <:+ before}
    (marked : (input.extend tail).mark valid = .nothing)
    (blank : input.rest.dropWhile isBlank = []) :
    ((input.extend tail).nextLexeme valid before gap within).Lost tail := by
  have text : (input.extend tail).rest.dropWhile isBlank = tail.dropWhile isBlank := by
    rw [Input.extend, List.dropWhile_append, blank]
    rfl
  have suffix : tail.dropWhile isBlank <:+ tail := List.dropWhile_suffix _
  cases found : trivia? ((input.extend tail).rest.dropWhile isBlank) with
  | some passed =>
      obtain ⟨kind, rest⟩ := passed
      rw [nextLexeme_trivia marked found]
      have shorter := (length_of_trivia? found).1
      rw [text] at shorter
      exact lost_of_short (shorter.trans_le suffix.length_le)
  | none =>
      rw [nextLexeme_ordinary marked found]
      obtain ⟨c, rest, rfl⟩ := List.exists_cons_of_ne_nil more
      by_cases isBlankChar : isBlank c = true
      · have less : ((c :: rest).dropWhile isBlank).length ≤ rest.length := by
          rw [List.dropWhile_cons_of_pos isBlankChar]
          exact (List.dropWhile_suffix _).length_le
        refine .inl ?_
        change ((input.extend (c :: rest)).rest.dropWhile isBlank).length < _
        rw [text]
        exact Nat.lt_succ_of_le less
      · refine .inr ?_
        change (token ((input.extend (c :: rest)).rest.dropWhile isBlank)).1 = _
        rw [text, List.dropWhile_cons_of_neg isBlankChar, token_of_atBreak cut]

/-! ### Trivia on both sides of a cut -/

/-- A continuation that ends before a cut is the same in the cut text. -/
theorem continuation?_append {text rest : List Char} (nonempty : text ≠ [])
    (found : continuation? (text ++ tail) = some rest) (before : tail.length ≤ rest.length) :
    ∃ left, rest = left ++ tail ∧ continuation? text = some left := by
  unfold continuation? at found
  split at found
  case h_5 => cases found
  all_goals
    rename_i same
    rw [Option.some.injEq] at found
    subst found
    cases text with
    | nil => exact absurd rfl nonempty
    | cons a text =>
        cases text with
        | nil => simp_all [continuation?]
        | cons b text => cases text <;> simp_all [continuation?]

theorem length_continuation? {c d : Char} {text rest : List Char}
    (found : continuation? (c :: d :: text) = some rest) : rest.length ≤ text.length := by
  unfold continuation? at found
  split at found
  case h_5 => cases found
  all_goals
    rename_i same
    rw [Option.some.injEq] at found
    simp_all

theorem continuation?_eq_none {text : List Char} (nonempty : text ≠ [])
    (none : continuation? (text ++ tail) = none) :
    continuation? text = .none ∨ text.head? = some '\\' := by
  cases found : continuation? text with
  | none => exact .inl rfl
  | some rest =>
      refine .inr ?_
      unfold continuation? at found
      split at found <;> simp_all

theorem trivia?_of_ne {c : Char} {text : List Char} (other : c ≠ '#') :
    trivia? (c :: text) = (continuation? (c :: text)).map fun rest => (.continuation, rest) := by
  unfold trivia?
  split <;> simp_all

/-- Trivia that ends before a cut is the same in the cut text. -/
theorem trivia?_append {text rest : List Char} {kind : Trivia} (nonempty : text ≠ [])
    (found : trivia? (text ++ tail) = some (kind, rest)) (before : tail.length ≤ rest.length) :
    ∃ left, rest = left ++ tail ∧ trivia? text = some (kind, left) := by
  obtain ⟨c, text, rfl⟩ := List.exists_cons_of_ne_nil nonempty
  by_cases comment : c = '#'
  · subst comment
    rw [List.cons_append, trivia?] at found
    obtain ⟨rfl, rfl⟩ := Prod.mk.inj (Option.some.inj found)
    refine ⟨text.dropWhile fun c => !endsComment c, ?_, rfl⟩
    rw [List.dropWhile_append] at before ⊢
    split at before
    next isEmpty =>
      have all : tail.dropWhile (fun c => !endsComment c) = tail :=
        (List.dropWhile_suffix _).eq_of_length_le before
      rw [if_pos isEmpty, List.isEmpty_iff.mp isEmpty, all, List.nil_append]
    next isOther => rw [if_neg isOther]
  · rw [List.cons_append, trivia?_of_ne comment] at found
    obtain ⟨rest', continued, same⟩ := Option.map_eq_some_iff.mp found
    obtain ⟨rfl, rfl⟩ := Prod.mk.inj same
    obtain ⟨left, split, found'⟩ := continuation?_append nonempty continued before
    exact ⟨left, split, by rw [trivia?_of_ne comment, found', Option.map_some]⟩

/-- Where a longer text starts with no trivia, the cut one does not either, or nothing can be read. -/
theorem trivia?_eq_none {text : List Char} (nonempty : text ≠ [])
    (none : trivia? (text ++ tail) = none) :
    trivia? text = .none ∨ (token (text ++ tail)).1 = .unknown := by
  obtain ⟨c, text, rfl⟩ := List.exists_cons_of_ne_nil nonempty
  by_cases comment : c = '#'
  · subst comment
    simp [trivia?] at none
  · rw [List.cons_append, trivia?_of_ne comment, Option.map_eq_none_iff] at none
    rcases continuation?_eq_none nonempty none with same | backslash
    · exact .inl (by rw [trivia?_of_ne comment, same, Option.map_none])
    · obtain rfl : c = '\\' := by simpa using backslash
      exact .inr (congrArg Prod.fst (token_of_atBreak (by simp [atBreak, breakChars])))

/-! ### Scans over trivia -/

variable {layout : Bool}

/-- A scan among blanks passes a blank, a backslash, or the start of a comment line. -/
theorem step_among_blanks {crossed : Bool} {indent : Nat} {comment : Option Nat} {c : Char}
    {next : Scan} (passed : Scan.step layout ⟨.blank, crossed, indent, comment⟩ c = .pass next) :
    (isBlank c = true ∧ ∃ crossed' indent', next = ⟨.blank, crossed', indent', comment⟩) ∨
    (c = '\\' ∧ next = ⟨.backslash, crossed, indent, comment⟩) ∨
    (c = '#' ∧ next = ⟨.comment, true, indent, comment.or (some indent)⟩) := by
  simp only [Scan.step] at passed
  split_ifs at passed with backslash newline space tab other mark across <;>
    have same := (Scan.Step.pass.inj passed).symm
  case pos => exact .inr (.inl ⟨by simpa using backslash, same⟩)
  case pos =>
    obtain rfl : c = '\n' := by simpa using newline
    exact .inl ⟨by decide, _, _, same⟩
  case pos =>
    obtain rfl : c = ' ' := by simpa using space
    exact .inl ⟨by decide, _, _, same⟩
  case pos =>
    obtain rfl : c = '\t' := by simpa using tab
    exact .inl ⟨by decide, _, _, same⟩
  case pos =>
    have either : c = '\r' ∨ c = '\x0c' := by simpa using other
    rcases either with rfl | rfl <;> exact .inl ⟨by decide, _, _, same⟩
  case pos =>
    refine .inr (.inr ⟨(by simpa using mark : c = '#' ∧ _).1, ?_⟩)
    rw [same, across]

/-- A scan that passes a text passes its blanks, and comes to trivia or to the end. -/
theorem passes_blanks {crossed : Bool} {indent : Nat} {comment : Option Nat} {text : List Char}
    {next : Scan} (passed : Scan.across layout ⟨.blank, crossed, indent, comment⟩ text = some next) :
    ∃ crossed' indent',
      Scan.across layout ⟨.blank, crossed, indent, comment⟩ (text.takeWhile isBlank) =
        some ⟨.blank, crossed', indent', comment⟩ ∧
      Scan.across layout ⟨.blank, crossed', indent', comment⟩ (text.dropWhile isBlank) = some next ∧
      ∀ c ∈ (text.dropWhile isBlank).head?, c = '#' ∨ c = '\\' := by
  induction text generalizing crossed indent with
  | nil => exact ⟨crossed, indent, rfl, passed, by simp⟩
  | cons c text ih =>
      cases stepped : Scan.step layout ⟨.blank, crossed, indent, comment⟩ c with
      | reach => simp [Scan.across, stepped] at passed
      | fail => simp [Scan.across, stepped] at passed
      | pass after =>
          rcases step_among_blanks stepped with ⟨blank, crossed', indent', rfl⟩ | trivia
          · simp only [Scan.across, stepped] at passed
            obtain ⟨crossed'', indent'', blanks, rest, start⟩ := ih passed
            rw [List.takeWhile_cons_of_pos blank, List.dropWhile_cons_of_pos blank]
            refine ⟨crossed'', indent'', ?_, rest, start⟩
            simp only [Scan.across, stepped, blanks]
          · have mark : c = '#' ∨ c = '\\' := by
              rcases trivia with ⟨char, -⟩ | ⟨char, -⟩
              · exact .inr char
              · exact .inl char
            have notBlank : ¬isBlank c = true := by
              rcases mark with rfl | rfl <;> decide
            rw [List.takeWhile_cons_of_neg notBlank, List.dropWhile_cons_of_neg notBlank]
            refine ⟨crossed, indent, rfl, passed, ?_⟩
            intro d same
            obtain rfl : c = d := by simpa using same
            exact mark

theorem passes_comment {scan : Scan} (inComment : scan.mode = .comment) (text : List Char) :
    scan.across layout (text.takeWhile fun c => !endsComment c) = some scan := by
  induction text with
  | nil => rfl
  | cons c text ih =>
      cases ends : endsComment c with
      | true => rw [List.takeWhile_cons_of_neg (by simp [ends]), Scan.across]
      | false =>
          have no : (c == '\n' || c == '\x00') = false := ends
          have stepped : scan.step layout c = .pass scan := by
            simp only [Scan.step, inComment, no, Bool.false_eq_true, if_false]
          rw [List.takeWhile_cons_of_pos (by simp [ends]), Scan.across]
          simpa only [stepped] using ih

/-- At a line end it does not matter whether a comment or blanks came before it. -/
theorem step_newline {indent : Nat} {comment : Option Nat} :
    Scan.step layout ⟨.comment, true, indent, comment⟩ '\n' =
      Scan.step layout ⟨.blank, true, indent, comment⟩ '\n' := rfl

/-- What a scan does after a comment, as if blanks had come before. -/
theorem passes_after_comment {indent : Nat} {comment : Option Nat} {left : List Char} {next : Scan}
    (more : tail ≠ []) (ends : ∀ c ∈ (left ++ tail).head?, c = '\n')
    (passed : Scan.across layout ⟨.comment, true, indent, comment⟩ left = some next) :
    ∃ next', Scan.across layout ⟨.blank, true, indent, comment⟩ left = some next' ∧
      next'.comment = next.comment ∧
      passBlanks layout ⟨.comment, true, indent, comment⟩ (left ++ tail) =
        passBlanks layout ⟨.blank, true, indent, comment⟩ (left ++ tail) := by
  cases left with
  | nil =>
      obtain ⟨c, rest, rfl⟩ := List.exists_cons_of_ne_nil more
      obtain rfl : c = '\n' := ends c (by simp)
      refine ⟨_, rfl, ?_, ?_⟩
      · rw [← Option.some.inj passed]
      · rw [List.nil_append, passBlanks, passBlanks, step_newline]
  | cons c left =>
      obtain rfl : c = '\n' := ends c (by simp)
      refine ⟨next, ?_, rfl, ?_⟩
      · rw [Scan.across, step_newline] at passed
        rw [Scan.across]
        exact passed
      · rw [List.cons_append, passBlanks, passBlanks, step_newline]

/-- A scan among blanks that passes the start of a comment goes on inside it. -/
theorem opens_comment {crossed : Bool} {indent : Nat} {comment : Option Nat} {text : List Char}
    {next : Scan}
    (passed : Scan.across layout ⟨.blank, crossed, indent, comment⟩ ('#' :: text) = some next) :
    Scan.step layout ⟨.blank, crossed, indent, comment⟩ '#' =
        .pass ⟨.comment, true, indent, comment.or (some indent)⟩ ∧
      Scan.across layout ⟨.comment, true, indent, comment.or (some indent)⟩ text = some next := by
  cases stepped : Scan.step layout ⟨.blank, crossed, indent, comment⟩ '#' with
  | reach => simp [Scan.across, stepped] at passed
  | fail => simp [Scan.across, stepped] at passed
  | pass after =>
      rcases step_among_blanks stepped with ⟨blank, -⟩ | ⟨other, -⟩ | ⟨-, rfl⟩
      · exact absurd blank (by decide)
      · exact absurd other (by decide)
      · simp only [Scan.across, stepped] at passed
        exact ⟨rfl, passed⟩

/-- A scan that passes a comment goes on at its end as if blanks had come before, unless a null
character ends the comment. -/
theorem passes_comment_line (more : tail ≠ []) {crossed : Bool} {indent : Nat}
    {comment : Option Nat} {text left : List Char} {next : Scan}
    (passed : Scan.across layout ⟨.blank, crossed, indent, comment⟩ ('#' :: text) = some next)
    (ends : (text ++ tail).dropWhile (fun c => !endsComment c) = left ++ tail)
    (ends' : text.dropWhile (fun c => !endsComment c) = left) :
    (left ++ tail).head? = some '\x00' ∨
    ∃ comment' next',
      Scan.across layout ⟨.blank, true, indent, comment'⟩ left = some next' ∧
      next'.comment = next.comment ∧
      passBlanks layout ⟨.blank, crossed, indent, comment⟩ ('#' :: text ++ tail) =
        passBlanks layout ⟨.blank, true, indent, comment'⟩ (left ++ tail) := by
  obtain ⟨opened, inside⟩ := opens_comment passed
  have within := @passes_comment layout ⟨.comment, true, indent, comment.or (some indent)⟩ rfl text
  have parts := List.takeWhile_append_dropWhile (p := fun c => !endsComment c) (l := text)
  rw [ends'] at parts
  rw [← parts, Scan.across_append within] at inside
  have goes : passBlanks layout ⟨.blank, crossed, indent, comment⟩ ('#' :: text ++ tail) =
      passBlanks layout ⟨.comment, true, indent, comment.or (some indent)⟩ (left ++ tail) := by
    rw [List.cons_append, passBlanks]
    simp only [opened]
    nth_rewrite 1 [← parts]
    rw [List.append_assoc, passBlanks_across within]
  have ended := List.head?_dropWhile_not (fun c => !endsComment c) (text ++ tail)
  rw [ends] at ended
  cases first : (left ++ tail).head? with
  | none => simp_all
  | some c =>
      rw [first] at ended
      have char : c = '\n' ∨ c = '\x00' :=
        or_iff_not_imp_left.mpr (by simpa [endsComment] using ended)
      rcases char with rfl | rfl
      · obtain ⟨next', passed', same, equal⟩ := passes_after_comment more (by simp [first]) inside
        exact .inr ⟨_, next', passed', same, goes.trans equal⟩
      · exact .inl rfl

/-- A scan that passes a continued line is after it as it was before. -/
theorem passes_continuation (more : tail ≠ []) {crossed : Bool} {indent : Nat}
    {comment : Option Nat} {text left : List Char} {next : Scan}
    (passed : Scan.across layout ⟨.blank, crossed, indent, comment⟩ text = some next)
    (found : continuation? (text ++ tail) = some (left ++ tail))
    (found' : continuation? text = some left) :
    Scan.across layout ⟨.blank, crossed, indent, comment⟩ left = some next ∧
      passBlanks layout ⟨.blank, crossed, indent, comment⟩ (text ++ tail) =
        passBlanks layout ⟨.blank, crossed, indent, comment⟩ (left ++ tail) := by
  unfold continuation? at found'
  split at found'
  · -- A backslash at the end of the cut text does not end the longer one.
    obtain ⟨d, rest, rfl⟩ := List.exists_cons_of_ne_nil more
    rw [← Option.some.inj found'] at found
    have short := length_continuation? found
    simp only [List.nil_append, List.length_cons] at short
    omega
  · obtain rfl := Option.some.inj found'
    exact ⟨passed, rfl⟩
  · obtain rfl := Option.some.inj found'
    exact ⟨passed, rfl⟩
  · cases passed
  · cases found'

/-- A scan that passes a text passes the trivia in front of it, unless that is a comment that a null
character ends. -/
theorem passes_trivia (more : tail ≠ []) {crossed : Bool} {indent : Nat}
    {comment : Option Nat} {text left : List Char} {kind : Trivia} {next : Scan}
    (passed : Scan.across layout ⟨.blank, crossed, indent, comment⟩ text = some next)
    (found : trivia? (text ++ tail) = some (kind, left ++ tail))
    (found' : trivia? text = some (kind, left)) :
    (left ++ tail).head? = some '\x00' ∨
    ∃ crossed' indent' comment' next',
      Scan.across layout ⟨.blank, crossed', indent', comment'⟩ left = some next' ∧
      next'.comment = next.comment ∧
      passBlanks layout ⟨.blank, crossed, indent, comment⟩ (text ++ tail) =
        passBlanks layout ⟨.blank, crossed', indent', comment'⟩ (left ++ tail) := by
  cases text with
  | nil => simp [trivia?, continuation?] at found'
  | cons c text =>
      by_cases mark : c = '#'
      · subst mark
        rw [List.cons_append, trivia?] at found
        rw [trivia?] at found'
        obtain ⟨-, ends⟩ := Prod.mk.inj (Option.some.inj found)
        obtain ⟨-, ends'⟩ := Prod.mk.inj (Option.some.inj found')
        refine (passes_comment_line more passed ends ends').imp_right ?_
        rintro ⟨comment', next', goes⟩
        exact ⟨true, indent, comment', next', goes⟩
      · rw [List.cons_append, trivia?_of_ne mark] at found
        rw [trivia?_of_ne mark] at found'
        obtain ⟨rest, continued, same⟩ := Option.map_eq_some_iff.mp found
        obtain ⟨rest', continued', same'⟩ := Option.map_eq_some_iff.mp found'
        obtain ⟨-, rfl⟩ := Prod.mk.inj same
        obtain ⟨-, rfl⟩ := Prod.mk.inj same'
        obtain ⟨passed', goes⟩ := passes_continuation more passed continued continued'
        exact .inr ⟨crossed, indent, comment, next, passed', rfl, goes⟩

/-! ### What is left before a cut -/

/-- What a parser can take: a deeper block only in place of a line end, and not a line end together
with the end of a block. -/
structure Valid.Proper (valid : Valid) : Prop where
  /-- Where a deeper block may start, a line may end. -/
  indent : valid.indent = true → valid.newline = true
  /-- Where a line may end, no block ends. -/
  newline : valid.newline = true → valid.dedent = false

theorem proper_suite : Valid.suite.Proper := ⟨fun _ => rfl, fun _ => rfl⟩

theorem Expect.indent_eq_false (expect : Expect) : expect.valid.indent = false := by
  cases expect <;> rfl

theorem Expect.proper (expect : Expect) : expect.valid.Proper := by
  cases expect <;> exact ⟨by decide, by decide⟩

/-- A token without a width is found only after a line end was passed. -/
theorem markAt_crossed {valid : Valid} (proper : valid.Proper) {input : Input} {reached : Reached}
    (border : input.markAt valid reached = .newline ∨ input.markAt valid reached = .dedent ∨
      ∃ width, input.markAt valid reached = .indent width) :
    reached.crossed = true ∧
      (valid.newline = true ∨ closesBlock valid input reached = true) := by
  unfold Input.markAt at border
  split_ifs at border with deeper closes ends comment
  · simp only [Bool.and_eq_true] at deeper
    exact ⟨deeper.1.1, .inl (proper.indent deeper.1.2)⟩
  · simp only [Bool.and_eq_true] at closes
    exact ⟨closes.1, .inr closes.2⟩
  · simp only [Bool.and_eq_true] at ends
    exact ⟨ends.1, .inl ends.2⟩
  · simp at border
  · split at border <;> simp at border

/-- A quote that is found when only blanks and trivia are left before a cut stands after it. -/
theorem quote_after_cut (cut : atBreak tail = true) {valid : Valid} {input : Input}
    {crossed : Bool} {indent : Nat} {comment : Option Nat} {next : Scan}
    (passed : Scan.across valid.layout ⟨.blank, crossed, indent, comment⟩ input.rest = some next)
    {quote : Quote} {start : List Char} {length : Nat}
    (marked : (input.extend tail).mark valid = .quote quote start length) :
    start.length < tail.length := by
  unfold Input.mark at marked
  split at marked
  · cases marked
  next reached found =>
    obtain ⟨rfl, opened⟩ := Input.markAt_quote marked
    change passBlanks valid.layout .fresh (input.rest ++ tail) = some reached at found
    rcases fresh_across_or_stuck passed with ⟨other, fresh⟩ | ⟨stopped, stuck⟩
    · rw [passBlanks_across fresh] at found
      have suffix := rest_of_passBlanks found
      refine lt_of_le_of_ne suffix.length_le fun same => ?_
      rw [suffix.eq_of_length same, show Quote.open? tail = none from open?_append cut []] at opened
      cases opened
    · rw [passBlanks_extend stopped, stuck] at found
      cases found

/-- A null character is no token. -/
theorem unknown_of_null {valid : Valid} {before : List Char} {gap : List Trivia} {input : Input}
    {within : input.rest <:+ before} (null : input.rest.head? = some '\x00') :
    (input.nextLexeme valid before gap within).token = .unknown := by
  obtain ⟨rest, same⟩ : ∃ rest, input.rest = '\x00' :: rest := by
    cases text : input.rest with
    | nil => simp [text] at null
    | cons c rest => exact ⟨rest, by simpa [text] using null⟩
  have reached : passBlanks valid.layout .fresh input.rest =
      some ⟨false, 0, none, '\x00' :: rest⟩ := by
    rw [same, passBlanks]
    simp [Scan.step, Scan.fresh]
  have marked : input.mark valid = .nothing := by
    have opened : Quote.open? ('\x00' :: rest) = none :=
      open?_append (by simp [atBreak, breakChars]) []
    simp [Input.mark, reached, Input.markAt, opened]
  have blanks : input.rest.dropWhile isBlank = '\x00' :: rest := by
    rw [same, List.dropWhile_cons_of_neg (by decide)]
  have noTrivia : trivia? (input.rest.dropWhile isBlank) = none := by
    rw [blanks, trivia?_of_ne (by decide)]
    simp [continuation?]
  rw [nextLexeme_ordinary marked noTrivia]
  change (token (input.rest.dropWhile isBlank)).1 = _
  rw [blanks, token_of_atBreak (by simp [atBreak, breakChars])]

/-- Where the layout gives nothing, the next lexeme of a longer text is lost, or it comes after trivia
that the cut text has too, or it is the ordinary token that both have. -/
theorem nextLexeme_of_nothing (cut : atBreak tail = true) (more : tail ≠ []) {valid : Valid}
    {before : List Char} {gap : List Trivia} {input : Input}
    {within : (input.extend tail).rest <:+ before}
    (marked : (input.extend tail).mark valid = .nothing) :
    ((input.extend tail).nextLexeme valid before gap within).Lost tail ∨
    (∃ kind left within', trivia? (input.rest.dropWhile isBlank) = some (kind, left) ∧
      trivia? (input.rest.dropWhile isBlank ++ tail) = some (kind, left ++ tail) ∧
      (input.extend tail).nextLexeme valid before gap within =
        ({ input with rest := left }.extend tail).nextLexeme valid before (kind :: gap) within') ∨
    (∃ within', trivia? (input.rest.dropWhile isBlank) = none ∧
      input.rest.dropWhile isBlank ≠ [] ∧
      (input.extend tail).nextLexeme valid before gap within =
        .ordinary before gap.reverse (input.extend tail) (input.rest.dropWhile isBlank ++ tail)
          within') := by
  by_cases blank : input.rest.dropWhile isBlank = []
  · exact .inl (lost_of_blanks cut more marked blank)
  have text : (input.extend tail).rest.dropWhile isBlank = input.rest.dropWhile isBlank ++ tail := by
    rw [Input.extend, List.dropWhile_append, if_neg (by simpa using blank)]
  cases found : trivia? ((input.extend tail).rest.dropWhile isBlank) with
  | some passed =>
      obtain ⟨kind, rest⟩ := passed
      rw [nextLexeme_trivia marked found]
      rw [text] at found
      by_cases short : rest.length < tail.length
      · exact .inl (lost_of_short short)
      · obtain ⟨left, rfl, found'⟩ := trivia?_append blank found (Nat.le_of_not_lt short)
        exact .inr (.inl ⟨kind, left, _, found', found, rfl⟩)
  | none =>
      have ordinary : (input.extend tail).nextLexeme valid before gap within =
          .ordinary before gap.reverse (input.extend tail) (input.rest.dropWhile isBlank ++ tail)
            (text ▸ (List.dropWhile_suffix _).trans within) := by
        rw [nextLexeme_ordinary marked found]
        congr 1
      rw [text] at found
      rcases trivia?_eq_none blank found with none | unknown
      · exact .inr (.inr ⟨_, none, blank, ordinary⟩)
      · refine .inl (.inr ?_)
        rw [ordinary]
        exact unknown

/-- A scan of the longer text passes a line end, and the line may end where it gets or the block may
close there; `seen` is the first comment before the cut. -/
def Input.Settles (tail : List Char) (valid : Valid) (input : Input) (scan : Scan)
    (seen : Option Nat) : Prop :=
  ∃ reached, passBlanks valid.layout scan (input.rest ++ tail) = some reached ∧
    reached.crossed = true ∧
    (valid.newline = true ∨ mayClose valid input reached = true ∧
      (seen = none → reached.comment.all input.isShallower = true))

/-- A token without a width: a fresh scan passes a line end before it, and so does any other one. -/
theorem settles_of_border {valid : Valid} (proper : valid.Proper) {input : Input} {crossed : Bool}
    {indent : Nat} {comment : Option Nat} {next : Scan}
    (passed : Scan.across valid.layout ⟨.blank, crossed, indent, comment⟩ input.rest = some next)
    (border : (input.extend tail).mark valid = .newline ∨ (input.extend tail).mark valid = .dedent ∨
      ∃ width, (input.extend tail).mark valid = .indent width) :
    input.Settles tail valid ⟨.blank, crossed, indent, comment⟩ next.comment := by
  unfold Input.mark at border
  split at border
  · simp at border
  next reached found =>
    obtain ⟨across, ends⟩ := markAt_crossed proper border
    refine ⟨_, passBlanks_of_fresh found across, across, ends.imp_right fun closes => ?_⟩
    rw [closesBlock, Bool.and_eq_true] at closes
    refine ⟨closes.1, fun unseen => ?_⟩
    have clear : comment = none := by
      cases comment with
      | none => rfl
      | some width => rw [comment_of_across passed rfl] at unseen; cases unseen
    rw [clear, Option.none_or]
    exact closes.2

/-- Where only blanks and trivia are left before a cut, what is read is lost, or a line end is passed,
and the line may end there or the block may close. -/
theorem lost_or_settles (cut : atBreak tail = true) (more : tail ≠ []) {valid : Valid}
    (proper : valid.Proper) {before : List Char} {gap : List Trivia} {input : Input}
    {within : (input.extend tail).rest <:+ before} {crossed : Bool} {indent : Nat}
    {comment : Option Nat} {next : Scan}
    (passed : Scan.across valid.layout ⟨.blank, crossed, indent, comment⟩ input.rest = some next) :
    ((input.extend tail).nextLexeme valid before gap within).Lost tail ∨
      input.Settles tail valid ⟨.blank, crossed, indent, comment⟩ next.comment := by
  generalize size : input.rest.length = n
  induction n using Nat.strongRecOn generalizing input gap crossed indent comment next with
  | ind n ih =>
      cases marked : (input.extend tail).mark valid with
      | newline => exact .inr (settles_of_border proper passed (.inl marked))
      | dedent => exact .inr (settles_of_border proper passed (.inr (.inl marked)))
      | indent width => exact .inr (settles_of_border proper passed (.inr (.inr ⟨width, marked⟩)))
      | quote opened start length =>
          refine .inl (.inl ?_)
          rw [nextLexeme_quote marked]
          exact quote_after_cut cut passed marked
      | nothing =>
          obtain ⟨crossed', indent', blanks, rest, start⟩ := passes_blanks passed
          have goes : passBlanks valid.layout ⟨.blank, crossed, indent, comment⟩
                (input.rest ++ tail) =
              passBlanks valid.layout ⟨.blank, crossed', indent', comment⟩
                (input.rest.dropWhile isBlank ++ tail) := by
            rw [← passBlanks_across blanks, ← List.append_assoc, List.takeWhile_append_dropWhile]
          rcases @nextLexeme_of_nothing tail cut more valid before gap input within marked with
            lost | ⟨kind, left, within', found', found, same⟩ | ⟨within', none, nonempty, same⟩
          · exact .inl lost
          · rw [same, Input.Settles, goes]
            rcases passes_trivia more rest found found' with
              null | ⟨crossed'', indent'', comment', next', passed', seen, equal⟩
            · exact .inl (.inr (unknown_of_null null))
            · rw [equal, ← seen]
              have shorter := (length_of_trivia? found').1
              have less := (List.dropWhile_suffix isBlank (l := input.rest)).length_le
              exact ih left.length (by omega) passed' rfl
          · refine .inl (.inr ?_)
            rw [same]
            change (token (input.rest.dropWhile isBlank ++ tail)).1 = _
            obtain ⟨c, text, isText⟩ := List.exists_cons_of_ne_nil nonempty
            rw [isText] at none start ⊢
            rcases start c (by simp) with rfl | rfl
            · simp [trivia?] at none
            · rw [List.cons_append, token_of_atBreak (by simp [atBreak, breakChars])]

/-! ### The next lexeme -/

/-- How the next lexeme of a longer text stands to the one of the cut text: it is lost, or it is the
same, or it opens a deeper block whose first lexeme is lost. -/
def Lexeme.Follows (tail : List Char) (full cut : Lexeme) : Prop :=
  full.Lost tail ∨ full.Extends tail cut ∨ full.token = .indent ∧ (full.next .boundary).Lost tail

theorem extends_border {before : List Char} {gap : List Trivia} {input : Input} {token : Token}
    {indents : List Nat} {within : (input.extend tail).rest <:+ before ++ tail}
    {within' : input.rest <:+ before} {narrow : token.isWritten = false}
    {breaks : token = .newline ∨ token = .dedent → atBreak (input.extend tail).rest = true}
    {breaks' : token = .newline ∨ token = .dedent → atBreak input.rest = true}
    (going : token ≠ .stop) :
    (Lexeme.border (before ++ tail) gap (input.extend tail) token indents within narrow
      breaks).Extends tail
      (Lexeme.border before gap input token indents within' narrow breaks') :=
  ⟨rfl, rfl, rfl, rfl, rfl, going⟩

/-- A line of some indentation is not shallower than a block of that indentation, so it does not
close one that just opened. -/
theorem lost_after_indent (cut : atBreak tail = true) (more : tail ≠ []) {input : Input}
    {reached : Reached} {next : Scan} (passed : Scan.fresh.across true input.rest = some next)
    (found : passBlanks true .fresh (input.rest ++ tail) = some reached) :
    (({ input with indents := reached.indent :: input.indents }.extend tail).next .boundary).Lost
      tail := by
  have inside : Scan.across Expect.boundary.valid.layout ⟨.blank, false, 0, none⟩
      { input with indents := reached.indent :: input.indents }.rest = some next := passed
  rcases lost_or_settles cut more (Expect.proper .boundary) inside with lost | settles
  · exact lost
  · obtain ⟨reached', found', -, ends⟩ := settles
    obtain rfl : reached = reached' := Option.some.inj (found.symm.trans found')
    simp [Expect.valid, mayClose, Input.isShallower, Input.indentation] at ends

/-- Where a cut text ends and the longer one goes on to a place where the line may end or the block
may close, both have the same mark, or the longer one goes on with a deeper block. -/
theorem markAt_end {valid : Valid} (proper : valid.Proper) {input : Input} {reached : Reached}
    {comment : Option Nat} (across : reached.crossed = true)
    (seen : ∀ width, comment = some width → reached.comment = some width)
    (settles : valid.newline = true ∨ mayClose valid input reached = true ∧
      (comment = none → reached.comment.all input.isShallower = true)) :
    (valid.indent = true ∧ input.markAt valid reached = .indent reached.indent) ∨
    ∃ mark, input.markAt valid reached = mark ∧ input.markAt valid ⟨true, 0, comment, []⟩ = mark ∧
      (mark = .newline ∨ mark = .dedent ∨ mark = .nothing) := by
  have notDeeper : input.isDeeper 0 = false := by simp [Input.isDeeper]
  -- A line may end only where no block closes.
  have notBoth : valid.newline = true → ∀ reached, closesBlock valid input reached = false := by
    intro newline other
    simp [closesBlock, mayClose, newline, proper.newline newline]
  by_cases deeper : reached.crossed && valid.indent && input.isDeeper reached.indent
  · refine .inl ⟨?_, by rw [Input.markAt, if_pos deeper]⟩
    simp only [Bool.and_eq_true] at deeper
    exact deeper.1.2
  refine .inr ⟨_, rfl, ?_⟩
  rw [Input.markAt, Input.markAt, if_neg deeper, notDeeper, across]
  cases newline : valid.newline with
  | true => simp [notBoth newline]
  | false =>
      obtain ⟨closes, shallow⟩ := settles.resolve_left (by simp [newline])
      have mayClose' : mayClose valid input ⟨true, 0, comment, []⟩ = true := by
        simp only [mayClose, newline, Bool.and_eq_true, Input.isShallower, decide_eq_true_eq,
          Bool.or_eq_true] at closes ⊢
        refine ⟨⟨?_, by omega⟩, closes.2⟩
        exact closes.1.1.imp_right fun free => ⟨by simp, free.2⟩
      simp only [closesBlock, closes, mayClose']
      cases comment with
      | none => simp [shallow rfl]
      | some width =>
          rw [seen width rfl]
          cases shallower : input.isShallower width <;> simp [shallower]

/-- The next lexeme of a longer text is lost, or it opens a deeper block whose first lexeme is lost, or
the layout marks it as that of the cut text. -/
theorem mark_extend_or_lost (cut : atBreak tail = true) (more : tail ≠ []) {valid : Valid}
    (proper : valid.Proper) {before : List Char} {gap : List Trivia} {input : Input}
    {within : (input.extend tail).rest <:+ before} :
    ((input.extend tail).nextLexeme valid before gap within).Lost tail ∨
    (∃ width, (input.extend tail).mark valid = .indent width ∧
      (({ input with indents := width :: input.indents }.extend tail).next .boundary).Lost tail) ∨
    (input.extend tail).mark valid = (input.mark valid).extend tail := by
  cases passed : Scan.fresh.across valid.layout input.rest with
  | none => exact .inr (.inr (mark_extend cut passed))
  | some next =>
      -- The cut text ends here, on a line of its own.
      have ended : passBlanks valid.layout .fresh input.rest = some ⟨true, 0, next.comment, []⟩ :=
        passBlanks_of_across passed
      rcases lost_or_settles cut more proper passed with lost | ⟨reached, found, across, settles⟩
      · exact .inl lost
      change passBlanks valid.layout .fresh _ = _ at found
      have mark : (input.extend tail).mark valid = (input.extend tail).markAt valid reached := by
        rw [Input.mark, show passBlanks valid.layout .fresh (input.extend tail).rest =
          some reached from found]
      have mark' : input.mark valid = input.markAt valid ⟨true, 0, next.comment, []⟩ := by
        rw [Input.mark, ended]
      have seen (width : Nat) (same : next.comment = some width) :
          reached.comment = some width := by
        rw [passBlanks_across passed] at found
        exact comment_of_passBlanks found same
      rcases markAt_end proper across seen settles with
        ⟨indent, deeper⟩ | ⟨both, isMark, isMark', same⟩
      · have layout : valid.layout = true := by simp [Valid.layout, indent]
        rw [layout] at passed found
        exact .inr (.inl ⟨_, mark.trans deeper, lost_after_indent cut more passed found⟩)
      · rw [mark, mark', isMark']
        refine .inr (.inr (isMark.trans ?_))
        rcases same with rfl | rfl | rfl <;> rfl

/-- The next lexeme of a longer text follows the one of the cut text. -/
theorem nextLexeme_extend (cut : atBreak tail = true) (more : tail ≠ []) {valid : Valid}
    (proper : valid.Proper) {before : List Char} {gap : List Trivia} {input : Input}
    {within : (input.extend tail).rest <:+ before ++ tail} {within' : input.rest <:+ before} :
    ((input.extend tail).nextLexeme valid (before ++ tail) gap within).Follows tail
      (input.nextLexeme valid before gap within') := by
  generalize size : input.rest.length = n
  induction n using Nat.strongRecOn generalizing input gap with
  | ind n ih =>
      rcases mark_extend_or_lost cut more proper with lost | ⟨width, deeper, lost⟩ | marks
      · exact .inl lost
      · rw [nextLexeme_indent deeper]
        exact .inr (.inr ⟨rfl, lost⟩)
      cases marked : input.mark valid with
      | newline =>
          rw [marked] at marks
          rw [nextLexeme_newline marks, nextLexeme_newline marked]
          exact .inr (.inl (extends_border (by decide)))
      | indent width =>
          rw [marked] at marks
          rw [nextLexeme_indent marks, nextLexeme_indent marked]
          exact .inr (.inl (extends_border (by decide)))
      | dedent =>
          rw [marked] at marks
          rw [nextLexeme_dedent marks, nextLexeme_dedent marked]
          exact .inr (.inl (extends_border (by decide)))
      | quote opened start length =>
          rw [marked] at marks
          rw [nextLexeme_quote marks, nextLexeme_quote marked]
          have within := open?_le (Input.mark_quote marked).2
          refine .inr (.inl ⟨rfl, rfl, rfl, rfl, ?_, by simp [Lexeme.opening]⟩)
          simp only [Lexeme.opening, Input.extend, List.drop_append_of_le_length within]
      | nothing =>
          -- Without a mark both texts go on after the same trivia, or with the same ordinary token.
          rw [marked] at marks
          rcases @nextLexeme_of_nothing tail cut more valid _ gap input within marks with
            lost | ⟨kind, left, within'', found', found, same⟩ | ⟨within'', none, nonempty, same⟩
          · exact .inl lost
          · rw [same, nextLexeme_trivia marked found']
            have shorter := (length_of_trivia? found').1
            have less := (List.dropWhile_suffix isBlank (l := input.rest)).length_le
            exact ih left.length (by omega) rfl
          · rw [same, nextLexeme_ordinary marked none]
            have token := token_append cut nonempty
            refine .inr (.inl ⟨rfl, rfl, rfl, congrArg Prod.fst token, ?_,
              token_ne_stop (by simp [nonempty])⟩)
            simp only [Lexeme.ordinary, Input.extend, token]
            rw [List.drop_append_of_le_length (token_le _)]

theorem nextOf_extend (cut : atBreak tail = true) (more : tail ≠ []) {valid : Valid}
    (proper : valid.Proper) (input : Input) :
    ((input.extend tail).nextOf valid).Follows tail (input.nextOf valid) :=
  nextLexeme_extend cut more proper

/-- The next lexeme at a place where no block starts is lost or the one of the cut text. -/
theorem next_extend (cut : atBreak tail = true) (more : tail ≠ []) (expect : Expect)
    (input : Input) :
    ((input.extend tail).next expect).Lost tail ∨
      ((input.extend tail).next expect).Extends tail (input.next expect) := by
  rcases nextOf_extend cut more expect.proper input with lost | same | ⟨indent, -⟩
  · exact .inl lost
  · exact .inr same
  · have noIndent := expect.indent_eq_false
    rw [indent_of_nextLexeme indent] at noIndent
    cases noIndent

end Respell.Source
