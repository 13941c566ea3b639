import Respell.Source.Quote

/-!
Layout: where lines end and blocks open and close. Blank lines, comment lines and continued lines
are passed over, and the indentation of the line that is reached is compared with the open blocks.
-/

set_option autoImplicit false

namespace Respell.Source

/-- What a parser can take next besides ordinary tokens. -/
structure Valid where
  /-- The end of a line. -/
  newline : Bool
  /-- The start of a deeper block. -/
  indent : Bool
  /-- The end of the current block. -/
  dedent : Bool
  /-- A closing bracket. -/
  close : Bool
  deriving DecidableEq

/-- Whether lines matter here at all. -/
def Valid.layout (valid : Valid) : Bool := valid.newline || valid.indent || valid.dedent

/-- What a parser can take right after the colon of a compound statement. -/
def Valid.suite : Valid := ⟨true, true, false, false⟩

/-- The places that a parser can be at after a token. -/
inductive Expect
  /-- Only ordinary tokens may follow. -/
  | operand
  /-- The line may end. -/
  | lineEnd
  /-- A bracket may close. -/
  | closing
  /-- Another statement follows, or the end of the block. -/
  | boundary
  deriving DecidableEq

/-- What a parser can take at a place. -/
def Expect.valid : Expect → Valid
  | operand => ⟨false, false, false, false⟩
  | lineEnd => ⟨true, false, false, false⟩
  | closing => ⟨false, false, false, true⟩
  | boundary => ⟨false, false, true, false⟩

/-- Text that is left to read, with the indentations of the open blocks, innermost first. -/
structure Input where
  /-- Remaining text. -/
  rest : List Char
  /-- Indentations of the open blocks. -/
  indents : List Nat
  /-- The last quote that opened is of a format string and has not closed. -/
  inFormat : Bool

/-- Indentation of the innermost block. -/
def Input.indentation (input : Input) : Nat := input.indents.headD 0

/-- Whether a line of some indentation is deeper than the innermost block. -/
def Input.isDeeper (input : Input) (indent : Nat) : Bool := input.indentation < indent

/-- Whether a line of some indentation is shallower than the innermost block. -/
def Input.isShallower (input : Input) (indent : Nat) : Bool := indent < input.indentation

/-- Where a scan over blanks is. -/
inductive ScanMode
  /-- Among blanks. -/
  | blank
  /-- In a comment. -/
  | comment
  /-- After a backslash. -/
  | backslash
  /-- After a backslash and a carriage return. -/
  | backslashReturn
  deriving DecidableEq

/-- What a scan over blanks has seen: whether a line end was passed, the indentation so far, and that
of the first comment line passed. -/
structure Scan where
  /-- Where the scan is. -/
  mode : ScanMode
  /-- A line end was passed. -/
  crossed : Bool
  /-- Indentation of the current line. -/
  indent : Nat
  /-- Indentation of the first comment line passed. -/
  comment : Option Nat
  deriving DecidableEq

namespace Scan

/-- A scan that has seen nothing. -/
def fresh : Scan := ⟨.blank, false, 0, none⟩

/-- What a character means to a scan. -/
inductive Step
  /-- It is passed. -/
  | pass (scan : Scan)
  /-- It is where the scan leads to. -/
  | reach
  /-- There is no place to reach. -/
  | fail

/-- Passes a character. Comment lines are passed where lines matter. There is no place to reach when
a comment follows on the same line, or a backslash that does not continue the line. -/
def step (layout : Bool) (scan : Scan) (c : Char) : Step :=
  match scan.mode with
  | .comment =>
    if c == '\n' || c == '\x00' then .pass { scan with mode := .blank, indent := 0 } else .pass scan
  | .backslash =>
    if c == '\n' then .pass { scan with mode := .blank }
    else if c == '\r' then .pass { scan with mode := .backslashReturn }
    else .fail
  | .backslashReturn => if c == '\n' then .pass { scan with mode := .blank } else .fail
  | .blank =>
    if c == '\\' then .pass { scan with mode := .backslash }
    else if c == '\n' then .pass { scan with crossed := true, indent := 0 }
    else if c == ' ' then .pass { scan with indent := scan.indent + 1 }
    else if c == '\t' then .pass { scan with indent := scan.indent + 8 }
    else if c == '\r' || c == '\x0c' then .pass { scan with indent := 0 }
    else if c == '#' && layout then
      if scan.crossed then
        .pass { scan with mode := .comment, comment := scan.comment.or (some scan.indent) }
      else .fail
    else .reach

end Scan

/-- A place reached over blanks: whether a line end was passed, the indentation, and that of the
first comment line passed. -/
structure Reached where
  /-- A line end was passed. -/
  crossed : Bool
  /-- Indentation of the line reached. -/
  indent : Nat
  /-- Indentation of the first comment line passed. -/
  comment : Option Nat
  /-- Text from there on. -/
  rest : List Char

/-- Passes over blanks. The end of a text is a line of its own. -/
def passBlanks (layout : Bool) (scan : Scan) : List Char → Option Reached
  | [] => some ⟨true, 0, scan.comment, []⟩
  | c :: rest =>
    match scan.step layout c with
    | .pass next => passBlanks layout next rest
    | .reach => some ⟨scan.crossed, scan.indent, scan.comment, c :: rest⟩
    | .fail => none

/-- Characters that start no token and may stand after the last one of a line. -/
def breakChars : List Char := ['\n', ' ', '\t', '\r', '\x0c', '\\', '\x00']

/-- Whether a text is at its end, or may be on the way to the end of a line. -/
def atBreak : List Char → Bool
  | [] => true
  | c :: _ => breakChars.contains c

/-- What the layout gives at a place. -/
inductive Mark
  | newline
  | indent (width : Nat)
  | dedent
  | quote (opened : Quote) (start : List Char) (length : Nat)
  | nothing

/-- Whether a line that was reached may close the innermost block: it is shallower, no format string
is open, and either the block may close here or the text could go on neither with a line end, nor in
brackets, nor with a string. -/
def mayClose (valid : Valid) (input : Input) (reached : Reached) : Bool :=
  (valid.dedent ||
    (!valid.newline && !reached.rest.head?.any Quote.isMark && !valid.close)) &&
    input.isShallower reached.indent && !input.inFormat

/-- Whether a line that was reached closes the innermost block: it may, and the first comment passed
is shallower than the block too. -/
def closesBlock (valid : Valid) (input : Input) (reached : Reached) : Bool :=
  mayClose valid input reached && reached.comment.all input.isShallower

/-- What the layout gives at a place from which another one was reached over blanks. -/
def Input.markAt (valid : Valid) (input : Input) (reached : Reached) : Mark :=
  if reached.crossed && valid.indent && input.isDeeper reached.indent then .indent reached.indent
  else if reached.crossed && closesBlock valid input reached then .dedent
  else if reached.crossed && valid.newline then .newline
  else if reached.comment.isSome then .nothing
  else
    match Quote.open? reached.rest with
    | some (quote, length) => .quote quote reached.rest length
    | none => .nothing

/-- The layout at the current place, or the quote that opens there. -/
def Input.mark (valid : Valid) (input : Input) : Mark :=
  match passBlanks valid.layout .fresh input.rest with
  | none => .nothing
  | some reached => input.markAt valid reached

theorem rest_of_passBlanks {layout : Bool} {scan : Scan} {text : List Char} {reached : Reached}
    (found : passBlanks layout scan text = some reached) : reached.rest <:+ text := by
  induction text generalizing scan with
  | nil =>
      obtain rfl := Option.some.inj found
      exact List.suffix_rfl
  | cons c rest ih =>
      rw [passBlanks] at found
      split at found
      · exact (ih found).trans (List.suffix_cons c rest)
      · obtain rfl := Option.some.inj found
        exact List.suffix_rfl
      · cases found

/-- A fresh scan passes only what may be on the way to the end of a line. -/
theorem mem_breakChars_of_step {layout : Bool} {c : Char} {next : Scan}
    (passed : Scan.fresh.step layout c = .pass next) : c ∈ breakChars := by
  simp only [Scan.step, Scan.fresh] at passed
  repeat' split at passed
  all_goals simp_all [breakChars]
  next either => rcases either with char | char <;> simp [char]

/-- What passes a line end starts at a break. -/
theorem atBreak_of_passBlanks {layout : Bool} {text : List Char} {reached : Reached}
    (found : passBlanks layout .fresh text = some reached) (crossed : reached.crossed = true) :
    atBreak text = true := by
  cases text with
  | nil => rfl
  | cons c rest =>
      rw [passBlanks] at found
      split at found
      next next passed => simpa [atBreak] using mem_breakChars_of_step passed
      · rw [← Option.some.inj found] at crossed
        cases crossed
      · cases found

/-- Lines end and blocks close only at a break. -/
theorem Input.atBreak_of_mark {valid : Valid} {input : Input}
    (marked : input.mark valid = .newline ∨ input.mark valid = .dedent) :
    atBreak input.rest = true := by
  unfold Input.mark at marked
  split at marked
  · simp at marked
  next reached found =>
    cases crossed : reached.crossed with
    | true => exact atBreak_of_passBlanks found crossed
    | false =>
        simp only [Input.markAt, crossed, Bool.false_and, Bool.false_eq_true, if_false] at marked
        split at marked
        · simp at marked
        · split at marked <;> simp at marked

/-- A quote is marked where it was reached. -/
theorem Input.markAt_quote {valid : Valid} {input : Input} {reached : Reached} {quote : Quote}
    {start : List Char} {length : Nat}
    (marked : input.markAt valid reached = .quote quote start length) :
    start = reached.rest ∧ Quote.open? start = some (quote, length) := by
  unfold Input.markAt at marked
  repeat (split at marked; · simp at marked)
  split at marked
  next opened =>
    simp only [Mark.quote.injEq] at marked
    obtain ⟨rfl, rfl, rfl⟩ := marked
    exact ⟨rfl, opened⟩
  · simp at marked

/-- A quote is marked where it stands in the remaining text, and it has a length. -/
theorem Input.mark_quote {valid : Valid} {input : Input} {quote : Quote} {start : List Char}
    {length : Nat} (marked : input.mark valid = .quote quote start length) :
    start <:+ input.rest ∧ Quote.open? start = some (quote, length) := by
  unfold Input.mark at marked
  split at marked
  · simp at marked
  next reached found =>
    obtain ⟨rfl, opened⟩ := Input.markAt_quote marked
    exact ⟨rest_of_passBlanks found, opened⟩

end Respell.Source
