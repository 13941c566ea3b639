import Mathlib
import Respell.Proofs.Cut.Strings

/-!
Bodies of strings that interpolate nothing. Between its marks such a body is read to its end, with
nothing left out but this: where a raw string has passed nothing but escaped pairs since its last
piece, the closing marks take those pairs along.
-/

set_option autoImplicit false

namespace Respell.Source

open Respell.Text

namespace Quote

/-- The marks that close a string. -/
def delimiter (q : Quote) : List Char := if q.triple then [q.mark, q.mark, q.mark] else [q.mark]

/-- Whether a character is a brace of a format string. -/
def isBrace (q : Quote) (c : Char) : Bool := q.format && (c == '{' || c == '}')

/-- What may stand between the marks of a quote: characters, pairs of a backslash and what it
escapes, and doubled braces in a format string. Lines end only in tripled marks, and marks stand
there only where they do not close the string. -/
inductive Encloses (q : Quote) : List Char → Prop
  | nil : Encloses q []
  | plain {c : Char} {body : List Char} : c ∉ ['\\', '\x00', '\r'] → q.isBrace c = false →
      (c = '\n' → q.triple = true) →
      (c = q.mark → q.triple = true ∧ [q.mark, q.mark].isPrefixOf (body ++ q.delimiter) = false) →
      Encloses q body → Encloses q (c :: body)
  | pair {c : Char} {body : List Char} : c ∉ ['\x00', '\r'] → q.isBrace c = false →
      (q.raw = false → c ≠ 'N') → Encloses q body → Encloses q ('\\' :: c :: body)
  | brace {c : Char} {body : List Char} : q.isBrace c = true → Encloses q body →
      Encloses q (c :: c :: body)
  | backslash {c : Char} {body : List Char} : q.isBrace c = true → Encloses q (c :: c :: body) →
      Encloses q ('\\' :: c :: c :: body)

/-- A quote of text, not of bytes, with a mark of the usual kinds. -/
structure OfText (q : Quote) : Prop where
  mark : q.mark = '\'' ∨ q.mark = '"'
  bytes : q.bytes = false

/-- How many characters at the end of a raw body are lost, if `held` characters were passed since
the last piece; nothing is held once there is content. A pair that is `tied` takes a line end
along. -/
def lostFrom (q : Quote) : Bool → Option Nat → List Char → Nat
  | _, held, [] => held.getD 0
  | _, held, '\\' :: c :: rest =>
    if q.isBrace c then q.lostFrom false (some 0) rest
    else if c == q.mark || c == '\\' then q.lostFrom true (held.map (· + 2)) rest
    else if c == '\n' then q.lostFrom false (held.map (· + 2)) rest
    else q.lostFrom false none rest
  | tied, held, c :: rest =>
    if q.isBrace c || c == q.mark then q.lostFrom false (some 0) rest
    else if tied && c == '\n' then q.lostFrom false (held.map (· + 1)) rest
    else q.lostFrom false none rest

/-- How many characters at the end of a body are lost. -/
def lost (q : Quote) (body : List Char) : Nat := if q.raw then q.lostFrom false (some 0) body else 0

end Quote

variable {q : Quote}

theorem lostFrom_plain {c : Char} (other : c ≠ '\\') (tied : Bool) (held : Option Nat)
    (rest : List Char) :
    q.lostFrom tied held (c :: rest) =
      if q.isBrace c || c == q.mark then q.lostFrom false (some 0) rest
      else if tied && c == '\n' then q.lostFrom false (held.map (· + 1)) rest
      else q.lostFrom false none rest := by
  rw [Quote.lostFrom]
  simp [other]

/-- A line end matters only to a tied pair. -/
theorem lostFrom_tied {body : List Char} (going : body.head? ≠ some '\n') (held : Option Nat) :
    q.lostFrom true held body = q.lostFrom false held body := by
  match body with
  | [] => rfl
  | '\\' :: c :: rest => rw [Quote.lostFrom, Quote.lostFrom]
  | ['\\'] => rfl
  | c :: rest =>
      have line : (c == '\n') = false := by simpa using going
      by_cases backslash : c = '\\'
      · subst backslash
        cases rest with
        | nil => rfl
        | cons d rest => rw [Quote.lostFrom, Quote.lostFrom]
      · rw [lostFrom_plain backslash, lostFrom_plain backslash, line]
        rfl

theorem lostFrom_le (tied : Bool) (held : Option Nat) (body : List Char) :
    q.lostFrom tied held body ≤ held.getD 0 + body.length := by
  have grown (held : Option Nat) (count : Nat) :
      (held.map (· + count)).getD 0 ≤ held.getD 0 + count := by
    cases held <;> simp
  fun_induction Quote.lostFrom q tied held body with
  | case1 => simp
  | case3 _ held c rest _ _ ih | case4 _ held c rest _ _ _ ih =>
      have := grown held 2
      simp only [List.length_cons]
      omega
  | case7 _ held c rest _ _ _ ih =>
      have := grown held 1
      simp only [List.length_cons]
      omega
  | case2 _ _ _ _ _ ih | case5 _ _ _ _ _ _ _ ih | case6 _ _ _ _ _ _ ih | case8 _ _ _ _ _ _ _ ih =>
      simp only [List.length_cons, Option.getD_some, Option.getD_none] at ih ⊢
      omega

theorem lost_le (q : Quote) (body : List Char) : q.lost body ≤ body.length := by
  unfold Quote.lost
  split
  · simpa using lostFrom_le false (some 0) body
  · exact Nat.zero_le _

theorem scan_pass {taken length : Nat} {content next : Bool} {c : Char} {rest : List Char}
    (step : q.bodyStep content c rest = .pass length next) :
    scanBody q taken content (c :: rest) =
      scanBody q (taken + length) next (rest.drop (length - 1)) := by
  rw [scanBody, step]

theorem scan_ends {taken : Nat} {content : Bool} {c : Char} {rest : List Char} {piece : Piece}
    (step : q.bodyStep content c rest = .ends piece) :
    scanBody q taken content (c :: rest) = piece.after taken := by
  rw [scanBody, step]

/-! ### Single characters -/

section

variable (content : Bool) {c : Char} {rest : List Char}

theorem isBrace_mark (ofText : q.OfText) : q.isBrace q.mark = false := by
  rcases ofText.mark with same | same <;> simp [Quote.isBrace, same]

theorem mark_ne_backslash (ofText : q.OfText) : q.mark ≠ '\\' := by
  rcases ofText.mark with same | same <;> rw [same] <;> decide

theorem bodyStep_of_mark (ofText : q.OfText) :
    q.bodyStep content q.mark rest =
      if q.triple && !([q.mark, q.mark].isPrefixOf rest) then
        .ends (.text (if rest.head? == some q.mark then 2 else 1))
      else .ends (if content then .text 0 else .close q.delimiter.length) := by
  have brace : (q.format && (q.mark == '{' || q.mark == '}')) = false := isBrace_mark ofText
  have null : (q.mark == '\x00') = false := by
    rcases ofText.mark with same | same <;> rw [same] <;> rfl
  have backslash : (q.mark == '\\') = false := beq_eq_false_iff_ne.mpr (mark_ne_backslash ofText)
  have closing : q.delimiter.length = if q.triple then 3 else 1 := by
    unfold Quote.delimiter
    split <;> rfl
  simp only [Quote.bodyStep, brace, null, backslash, closing, Bool.false_eq_true, if_false,
    beq_self_eq_true, if_true]
  cases content <;> rfl

theorem bodyStep_plain (plain : c ∉ ['\\', '\x00', '\r']) (brace : q.isBrace c = false)
    (line : c = '\n' → q.triple = true) (other : c ≠ q.mark) :
    q.bodyStep content c rest = .pass 1 true := by
  simp only [List.mem_cons, List.not_mem_nil, or_false, not_or] at plain
  have brace' : (q.format && (c == '{' || c == '}')) = false := brace
  have newline : (c == '\n' && content && !q.triple) = false := by
    by_cases same : c = '\n'
    · simp [line same]
    · simp [same]
  simp only [Quote.bodyStep, brace', newline, beq_eq_false_iff_ne.mpr plain.1,
    beq_eq_false_iff_ne.mpr plain.2.1, beq_eq_false_iff_ne.mpr other, Bool.false_eq_true, if_false]

theorem bodyStep_brace (brace : q.isBrace c = true) :
    q.bodyStep content c rest = .ends (if content then .text 0 else .nothing) := by
  have brace' : (q.format && (c == '{' || c == '}')) = true := brace
  rw [Quote.bodyStep, if_pos brace']

theorem bodyStep_raw (raw : q.raw = true) :
    q.bodyStep content '\\' rest = .pass (rawEscapeLength q.mark rest + 1) content := by
  simp [Quote.bodyStep, raw]

theorem bodyStep_escape (raw : q.raw = false) (unicode : q.bytes = false) :
    q.bodyStep content '\\' rest = .ends (if content then .text 0 else .nothing) := by
  simp [Quote.bodyStep, raw, unicode]

end

/-! ### Pieces -/

theorem isPrefixOf_append {text : List Char} (long : 2 ≤ text.length) (mark : Char)
    (rest : List Char) : [mark, mark].isPrefixOf (text ++ rest) = [mark, mark].isPrefixOf text := by
  match text, long with
  | a :: b :: more, _ => simp [List.isPrefixOf]

/-- The marks that close a string are not taken for anything else. -/
theorem exists_delimiter (q : Quote) (rest : List Char) :
    ∃ more, q.delimiter ++ rest = q.mark :: more ∧
      (q.triple && !([q.mark, q.mark].isPrefixOf more)) = false := by
  unfold Quote.delimiter
  cases q.triple with
  | false => exact ⟨rest, rfl, rfl⟩
  | true => exact ⟨q.mark :: q.mark :: rest, rfl, by simp [List.isPrefixOf]⟩

namespace Quote.Encloses

variable {body : List Char}

/-- What follows a character that is neither a backslash nor a brace. -/
theorem tail {c : Char} (enclosed : q.Encloses (c :: body)) (other : c ≠ '\\')
    (brace : q.isBrace c = false) : q.Encloses body := by
  cases enclosed with
  | plain _ _ _ _ rest => exact rest
  | pair => exact absurd rfl other
  | brace isBrace => rw [brace] at isBrace; cases isBrace
  | backslash => exact absurd rfl other

theorem ne_return {c : Char} (enclosed : q.Encloses (c :: body)) : c ≠ '\r' := by
  cases enclosed with
  | plain other =>
      simp only [List.mem_cons, List.not_mem_nil, or_false, not_or] at other
      exact other.2.2
  | pair => decide
  | brace isBrace =>
      rintro rfl
      simp [Quote.isBrace] at isBrace
  | backslash => decide

end Quote.Encloses

/-- Length of the line end at a place inside a string. -/
theorem lineEndLength_encloses (ofText : q.OfText) {body : List Char}
    (enclosed : q.Encloses body) (rest : List Char) :
    lineEndLength (body ++ (q.delimiter ++ rest)) = if body.head? = some '\n' then 1 else 0 := by
  cases body with
  | nil =>
      obtain ⟨more, same, -⟩ := exists_delimiter q rest
      rw [List.nil_append, same]
      rcases ofText.mark with mark | mark <;> simp [lineEndLength, List.isPrefixOf, mark]
  | cons c body =>
      have feed := enclosed.ne_return
      simp [lineEndLength, List.isPrefixOf, feed, feed.symm]

/-- How a raw string passes an escaped pair: with the line end after it where the two are tied, and
as content where there is nothing to escape. -/
structure PairPassed (q : Quote) (body : List Char) (size : Nat) (next : Bool) : Prop where
  within : 2 ≤ size ∧ size ≤ body.length
  rest : q.Encloses (body.drop size)
  scan : ∀ (taken : Nat) (content : Bool) (rest : List Char),
    scanBody q taken content (body ++ (q.delimiter ++ rest)) =
      scanBody q (taken + size) (content || next) (body.drop size ++ (q.delimiter ++ rest))
  lost : ∀ (tied : Bool) (held : Option Nat), q.lostFrom tied held body =
    q.lostFrom false (if next then none else held.map (· + size)) (body.drop size)
  line : size = 2 ∨ body.drop 2 = '\n' :: body.drop size
  short : next = false → ∀ rest, escapeLength (body ++ rest) = 2

/-- How a scan of a raw string starts at a pair. -/
private theorem scanBody_pair (raw : q.raw = true) (c : Char) (text : List Char) (taken : Nat)
    (content : Bool) :
    scanBody q taken content ('\\' :: c :: text) =
      scanBody q (taken + (rawEscapeLength q.mark (c :: text) + 1)) content
        (('\\' :: c :: text).drop (rawEscapeLength q.mark (c :: text) + 1)) :=
  scan_pass (bodyStep_raw content raw)

/-- Marks and backslashes are escaped, and take a line end along. -/
private theorem exists_pairPassed_of_escaped (ofText : q.OfText) (raw : q.raw = true) {c : Char}
    {body : List Char} (brace : ¬q.isBrace c = true) (enclosed : q.Encloses body)
    (escaped : (c == q.mark || c == '\\') = true) :
    ∃ size, PairPassed q ('\\' :: c :: body) size false := by
  have short (rest : List Char) : escapedLength c rest = 2 := by
    rcases Bool.or_eq_true_iff.mp escaped with same | same
    · rw [beq_iff_eq.mp same]
      rcases ofText.mark with mark | mark <;> rw [mark] <;> rfl
    · rw [beq_iff_eq.mp same]
      rfl
  have passed (taken : Nat) (content : Bool) (rest : List Char) :=
    scanBody_pair raw c (body ++ (q.delimiter ++ rest)) taken content
  simp only [rawEscapeLength_cons, if_pos escaped, lineEndLength_encloses ofText enclosed] at passed
  by_cases feeds : body.head? = some '\n'
  · obtain ⟨more, rfl⟩ := List.head?_eq_some_iff.mp feeds
    have newline : q.isBrace '\n' = false := by simp [Quote.isBrace]
    have other : ('\n' == q.mark) = false := by
      rcases ofText.mark with same | same <;> rw [same] <;> rfl
    refine ⟨3, ⟨by decide, by simp⟩, enclosed.tail (by decide) newline, ?_, ?_, .inr rfl,
      fun _ _ => short _⟩
    · intro taken content rest
      rw [List.cons_append, List.cons_append, passed, if_pos feeds, Bool.or_false]
      rfl
    · intro tied held
      rw [Quote.lostFrom, if_neg brace, if_pos escaped, lostFrom_plain (by decide), newline, other]
      simp only [Bool.or_self, Bool.false_eq_true, if_false, Bool.true_and, beq_self_eq_true,
        if_true, Option.map_map, List.drop_succ_cons, List.drop_zero]
      rfl
  · refine ⟨2, ⟨by decide, by simp⟩, enclosed, ?_, ?_, .inl rfl, fun _ _ => short _⟩
    · intro taken content rest
      rw [List.cons_append, List.cons_append, passed, if_neg feeds, Bool.or_false]
      rfl
    · intro tied held
      rw [Quote.lostFrom, if_neg brace, if_pos escaped, lostFrom_tied feeds]
      rfl

/-- A line end is escaped alone. -/
private theorem pairPassed_of_feed (raw : q.raw = true) {body : List Char}
    (brace : ¬q.isBrace '\n' = true) (enclosed : q.Encloses body)
    (escaped : ¬('\n' == q.mark || '\n' == '\\') = true) :
    PairPassed q ('\\' :: '\n' :: body) 2 false := by
  refine ⟨⟨by decide, by simp⟩, enclosed, ?_, ?_, .inl rfl, fun _ _ => rfl⟩
  · intro taken content rest
    rw [List.cons_append, List.cons_append, scanBody_pair raw, rawEscapeLength_cons,
      if_neg escaped, Bool.or_false]
    rfl
  · intro tied held
    rw [Quote.lostFrom, if_neg brace, if_neg escaped, if_pos (by decide)]
    rfl

/-- Any other character is content, and the backslash is passed before it. -/
private theorem pairPassed_of_content (raw : q.raw = true) {c : Char} {body : List Char}
    (fine : ¬c = '\x00' ∧ ¬c = '\r') (brace : q.isBrace c = false) (enclosed : q.Encloses body)
    (escaped : ¬(c == q.mark || c == '\\') = true) (feed : c ≠ '\n') :
    PairPassed q ('\\' :: c :: body) 2 true := by
  have other : c ≠ q.mark ∧ c ≠ '\\' := by simpa using escaped
  refine ⟨⟨by decide, by simp⟩, enclosed, ?_, ?_, .inl rfl, fun never => by cases never⟩
  · intro taken content rest
    have single : lineEndLength (c :: (body ++ (q.delimiter ++ rest))) = 0 := by
      simp [lineEndLength, List.isPrefixOf, fine.2, feed, Ne.symm fine.2]
    have plain : q.bodyStep content c (body ++ (q.delimiter ++ rest)) = .pass 1 true := by
      refine bodyStep_plain content ?_ brace (fun same => absurd same feed) other.1
      simp [other.2, fine]
    rw [List.cons_append, List.cons_append, scanBody_pair raw, rawEscapeLength_cons,
      if_neg escaped, single, Bool.or_true]
    exact scan_pass plain
  · intro tied held
    have unbroken : ¬q.isBrace c = true := by rw [brace]; decide
    rw [Quote.lostFrom, if_neg unbroken, if_neg escaped, if_neg (by simpa using feed)]
    rfl

theorem exists_pairPassed (ofText : q.OfText) (raw : q.raw = true) {c : Char}
    {body : List Char} (fine : c ∉ ['\x00', '\r']) (brace : q.isBrace c = false)
    (enclosed : q.Encloses body) : ∃ size next, PairPassed q ('\\' :: c :: body) size next := by
  have unbroken : ¬q.isBrace c = true := by rw [brace]; decide
  simp only [List.mem_cons, List.not_mem_nil, or_false, not_or] at fine
  by_cases escaped : (c == q.mark || c == '\\') = true
  · obtain ⟨size, passed⟩ := exists_pairPassed_of_escaped ofText raw unbroken enclosed escaped
    exact ⟨size, false, passed⟩
  by_cases feed : c = '\n'
  · subst feed
    exact ⟨2, false, pairPassed_of_feed raw unbroken enclosed escaped⟩
  · exact ⟨2, true, pairPassed_of_content raw fine brace enclosed escaped feed⟩

/-- What a scan has passed since the last piece, if there is no content. -/
def heldBy (taken : Nat) (content : Bool) : Option Nat := if content then none else some taken

/-- What a scan finds in a body, with what is left of the body and lost at its end. -/
inductive Scanned (q : Quote) (taken : Nat) (content : Bool) (body : List Char) : Piece → Prop
  | text {size : Nat} (within : size ≤ body.length) (going : content = true ∨ 0 < size)
      (rest : q.Encloses (body.drop size))
      (lost : q.raw = true → q.lostFrom false (heldBy taken content) body =
        q.lostFrom false (some 0) (body.drop size)) :
      Scanned q taken content body (.text (taken + size))
  | close (empty : content = false)
      (lost : q.raw = true → q.lostFrom false (some taken) body = taken + body.length)
      (ends : q.raw = false → body = []) :
      Scanned q taken content body (.close (taken + body.length + q.delimiter.length))
  | nothing (empty : content = false)
      (starts : ∃ c rest, body = c :: rest ∧ (c = '\\' ∨ q.isBrace c = true))
      (resets : q.raw = true → ∀ (tied : Bool) (held : Option Nat),
        q.lostFrom tied held body = q.lostFrom false (some 0) body) :
      Scanned q taken content body .nothing

namespace Scanned

variable {taken : Nat} {content : Bool} {body : List Char} {piece : Piece}

/-- A brace or an escape ends a piece. -/
theorem ends (enclosed : q.Encloses body)
    (starts : ∃ c rest, body = c :: rest ∧ (c = '\\' ∨ q.isBrace c = true))
    (resets : q.raw = true → ∀ (tied : Bool) (held : Option Nat),
      q.lostFrom tied held body = q.lostFrom false (some 0) body) :
    Scanned q taken content body ((if content then Piece.text 0 else .nothing).after taken) := by
  cases content with
  | true => exact .text (Nat.zero_le _) (.inl rfl) enclosed fun raw => resets raw _ _
  | false => exact .nothing rfl starts resets

/-- A scan goes on after a character of content. -/
theorem after_plain {c : Char} (other : c ≠ '\\') (brace : q.isBrace c = false)
    (inner : c ≠ q.mark) (scanned : Scanned q (taken + 1) true body piece) :
    Scanned q taken content (c :: body) piece := by
  cases scanned with
  | @text size within going rest lost =>
      have same : taken + 1 + size = taken + (size + 1) := by omega
      rw [same]
      refine .text (by simpa using within) (.inr (Nat.succ_pos _)) rest fun raw => ?_
      rw [lostFrom_plain other, brace, beq_eq_false_iff_ne.mpr inner]
      exact lost raw
  | close empty => cases empty
  | nothing empty => cases empty

/-- A scan goes on after an escaped pair of a raw string. -/
theorem after_pair {size : Nat} {next : Bool} (raw : q.raw = true)
    (passed : PairPassed q ('\\' :: body) size next)
    (scanned : Scanned q (taken + size) (content || next) (('\\' :: body).drop size) piece) :
    Scanned q taken content ('\\' :: body) piece := by
  have length : size + (('\\' :: body).drop size).length = ('\\' :: body).length := by
    have := passed.within
    rw [List.length_drop]
    omega
  have held : (if next then none else (heldBy taken content).map (· + size)) =
      heldBy (taken + size) (content || next) := by
    cases content <;> cases next <;> rfl
  cases scanned with
  | @text more within going rest lost =>
      rw [Nat.add_assoc]
      refine .text (by omega) (.inr (by have := passed.within; omega)) ?_ fun _ => ?_
      · rw [← List.drop_drop]
        exact rest
      · rw [passed.lost, held, ← List.drop_drop]
        exact lost raw
  | close empty lost =>
      obtain ⟨rfl, rfl⟩ : content = false ∧ next = false := by simpa using empty
      rw [Nat.add_assoc taken, length]
      refine .close rfl (fun _ => ?_) fun plain => absurd raw (by rw [plain]; decide)
      calc
        q.lostFrom false (some taken) ('\\' :: body) =
            q.lostFrom false (some (taken + size)) (('\\' :: body).drop size) :=
          passed.lost false (some taken)
        _ = taken + size + (('\\' :: body).drop size).length := lost raw
        _ = taken + ('\\' :: body).length := by omega
  | nothing empty _ resets =>
      obtain ⟨rfl, rfl⟩ : content = false ∧ next = false := by simpa using empty
      refine .nothing rfl ⟨_, _, rfl, .inl rfl⟩ fun _ tied held => ?_
      rw [passed.lost tied held, passed.lost false (some 0)]
      exact (resets raw _ _).trans (resets raw _ _).symm

end Scanned

theorem lostFrom_brace {c : Char} (brace : q.isBrace c = true) (tied : Bool) (held : Option Nat)
    (rest : List Char) : q.lostFrom tied held (c :: rest) = q.lostFrom false (some 0) rest := by
  have other : c ≠ '\\' := by
    rintro rfl
    simp [Quote.isBrace] at brace
  rw [lostFrom_plain other, brace]
  rfl

theorem resets_backslash {c : Char} {rest : List Char} (brace : q.isBrace c = true) (tied : Bool)
    (held : Option Nat) :
    q.lostFrom tied held ('\\' :: c :: rest) = q.lostFrom false (some 0) ('\\' :: c :: rest) := by
  rw [Quote.lostFrom, Quote.lostFrom, if_pos brace, if_pos brace]

/-- Marks that do not close the string end a piece. -/
theorem scanned_mark (ofText : q.OfText) {body : List Char}
    (triple : q.triple = true)
    (going : [q.mark, q.mark].isPrefixOf (body ++ q.delimiter) = false) (enclosed : q.Encloses body)
    (taken : Nat) (content : Bool) (rest : List Char) :
    Scanned q taken content (q.mark :: body)
      (scanBody q taken content (q.mark :: (body ++ (q.delimiter ++ rest)))) := by
  have delimiter : q.delimiter = [q.mark, q.mark, q.mark] := if_pos triple
  have further : [q.mark, q.mark].isPrefixOf (body ++ (q.delimiter ++ rest)) = false := by
    rw [← List.append_assoc, isPrefixOf_append _ q.mark rest, going]
    simp only [List.length_append, delimiter, List.length_cons]
    omega
  have step : q.bodyStep content q.mark (body ++ (q.delimiter ++ rest)) = _ :=
    bodyStep_of_mark content ofText
  rw [triple, further, Bool.not_false, Bool.and_self, if_pos rfl] at step
  have lost (tied : Bool) (held : Option Nat) (text : List Char) :
      q.lostFrom tied held (q.mark :: text) = q.lostFrom false (some 0) text := by
    rw [lostFrom_plain (mark_ne_backslash ofText), beq_self_eq_true, Bool.or_true]
    rfl
  rw [scan_ends step]
  by_cases second : (body ++ (q.delimiter ++ rest)).head? = some q.mark
  · cases body with
    | nil =>
        rw [List.nil_append, delimiter] at going
        simp [List.isPrefixOf] at going
    | cons d body =>
        obtain rfl : d = q.mark := Option.some.inj second
        rw [second, beq_self_eq_true]
        refine .text (by simp) (.inr (by decide)) ?_ fun _ => ?_
        · exact enclosed.tail (mark_ne_backslash ofText) (isBrace_mark ofText)
        · exact (lost _ _ _).trans (lost _ _ _)
  · rw [beq_eq_false_iff_ne.mpr second]
    exact .text (by simp) (.inr (by decide)) enclosed fun _ => lost _ _ _

/-- A backslash before a doubled brace stands alone. -/
theorem scanned_backslash (ofText : q.OfText) (raw : q.raw = true) {c : Char}
    {body : List Char} (brace : q.isBrace c = true) (enclosed : q.Encloses (c :: c :: body))
    (taken : Nat) (content : Bool) (rest : List Char) :
    Scanned q taken content ('\\' :: c :: c :: body)
      (scanBody q taken content ('\\' :: c :: c :: body ++ (q.delimiter ++ rest))) := by
  have chars : c = '{' ∨ c = '}' := by simpa using (Bool.and_eq_true_iff.mp brace).2
  have alone (text : List Char) : rawEscapeLength q.mark (c :: text) = 0 := by
    rw [rawEscapeLength_cons]
    rcases ofText.mark with mark | mark <;> rcases chars with rfl | rfl <;> rw [mark] <;> rfl
  have step : q.bodyStep content '\\' (c :: c :: body ++ (q.delimiter ++ rest)) =
      .pass 1 content := by
    rw [bodyStep_raw content raw, List.cons_append, alone]
  rw [List.cons_append, scan_pass step]
  change Scanned q taken content _ (scanBody q (taken + 1) content (c :: _))
  rw [scan_ends (bodyStep_brace content brace)]
  cases content with
  | true =>
      refine .text (by simp) (.inr Nat.one_pos) enclosed fun _ => ?_
      rw [Quote.lostFrom, if_pos brace]
      exact (lostFrom_brace brace _ _ _).symm
  | false => exact .nothing rfl ⟨_, _, rfl, .inl rfl⟩ fun _ => resets_backslash brace

/-- A scan of a body finds a piece of it, its end, or an escape or a brace that starts no piece. -/
theorem scanBody_encloses (ofText : q.OfText)
    (rest : List Char) {body : List Char} (enclosed : q.Encloses body) (taken : Nat)
    (content : Bool) :
    Scanned q taken content body (scanBody q taken content (body ++ (q.delimiter ++ rest))) := by
  -- The length, not the body's own structure: a pair may take the line end after it along.
  generalize size : body.length = n
  induction n using Nat.strongRecOn generalizing body taken content with
  | ind n ih =>
      subst size
      cases enclosed with
      | nil =>
          obtain ⟨more, same, closes⟩ := exists_delimiter q rest
          have step : q.bodyStep content q.mark more = _ := bodyStep_of_mark content ofText
          rw [closes] at step
          rw [List.nil_append, same, scan_ends step]
          cases content with
          | true => exact .text (Nat.zero_le _) (.inl rfl) .nil fun _ => rfl
          | false => exact .close rfl (fun _ => rfl) fun _ => rfl
      | @plain c body plain brace line mark enclosed =>
          have other : c ≠ '\\' := fun same => plain (by simp [same])
          by_cases inner : c = q.mark
          · obtain ⟨triple, going⟩ := mark inner
            subst inner
            exact scanned_mark ofText triple going enclosed taken content rest
          · rw [List.cons_append, scan_pass (bodyStep_plain content plain brace line inner)]
            exact .after_plain other brace inner (ih _ (by simp) enclosed _ _ rfl)
      | @pair c body fine brace named enclosed =>
          cases raw : q.raw with
          | true =>
              obtain ⟨size, next, passed⟩ := exists_pairPassed ofText raw fine brace enclosed
              rw [passed.scan]
              refine .after_pair raw passed (ih _ ?_ passed.rest _ _ rfl)
              have := passed.within
              rw [List.length_drop]
              omega
          | false =>
              rw [List.cons_append, scan_ends (bodyStep_escape content raw ofText.bytes)]
              exact .ends (.pair fine brace named enclosed) ⟨_, _, rfl, .inl rfl⟩ fun isRaw =>
                absurd isRaw (by rw [raw]; decide)
      | @brace c body brace enclosed =>
          rw [List.cons_append, scan_ends (bodyStep_brace content brace)]
          exact .ends (.brace brace enclosed) ⟨_, _, rfl, .inr brace⟩ fun _ _ _ =>
            (lostFrom_brace brace _ _ _).trans (lostFrom_brace brace _ _ _).symm
      | @backslash c body brace enclosed =>
          cases raw : q.raw with
          | true => exact scanned_backslash ofText raw brace enclosed taken content rest
          | false =>
              rw [List.cons_append, scan_ends (bodyStep_escape content raw ofText.bytes)]
              exact .ends (.backslash brace enclosed) ⟨_, _, rfl, .inl rfl⟩ fun isRaw =>
                absurd isRaw (by rw [raw]; decide)

/-! ### Escapes -/

/-- Digits at a place inside a string stand there as they are. -/
theorem encloses_drop (ofText : q.OfText) {isDigit : Char → Bool}
    (other : ∀ c ∈ ['\\', '\'', '"', '{', '}'], isDigit c = false) (rest : List Char)
    {body : List Char} (enclosed : q.Encloses body) {count : Nat}
    (run : count ≤ ((body ++ (q.delimiter ++ rest)).takeWhile isDigit).length) :
    count ≤ body.length ∧ q.Encloses (body.drop count) := by
  induction count generalizing body with
  | zero => exact ⟨Nat.zero_le _, enclosed⟩
  | succ count ih =>
      cases body with
      | nil =>
          obtain ⟨more, same, -⟩ := exists_delimiter q rest
          have mark : isDigit q.mark = false := by
            rcases ofText.mark with quote | quote <;> rw [quote] <;> exact other _ (by decide)
          rw [List.nil_append, same, List.takeWhile_cons, mark] at run
          cases run
      | cons c body =>
          rw [List.cons_append, List.takeWhile_cons] at run
          split at run
          next digit =>
            have plain : c ≠ '\\' := by
              rintro rfl
              rw [other _ (by decide)] at digit
              cases digit
            have brace : q.isBrace c = false := by
              refine Bool.not_eq_true _ ▸ fun brace => ?_
              have chars : c = '{' ∨ c = '}' := by simpa using (Bool.and_eq_true_iff.mp brace).2
              rcases chars with rfl | rfl <;> rw [other _ (by decide)] at digit <;> cases digit
            obtain ⟨within, further⟩ := ih (enclosed.tail plain brace) (Nat.le_of_succ_le_succ run)
            exact ⟨Nat.succ_le_succ within, further⟩
          next => cases run

/-- An escape ends inside its string. -/
theorem escapedLength_encloses (ofText : q.OfText) {c : Char} {body : List Char}
    (fine : c ∉ ['\x00', '\r']) (brace : q.isBrace c = false) (named : c ≠ 'N')
    (enclosed : q.Encloses body) (rest : List Char) :
    escapedLength c (body ++ (q.delimiter ++ rest)) ≤ body.length + 2 ∧
      q.Encloses (('\\' :: c :: body).drop
        (escapedLength c (body ++ (q.delimiter ++ rest)))) := by
  simp only [List.mem_cons, List.not_mem_nil, or_false, not_or] at fine
  -- A backslash that escapes nothing leaves the character after it.
  have lone (needless : c ∉ ['\n', '\'', '"', '\\']) : q.Encloses (c :: body) := by
    simp only [List.mem_cons, List.not_mem_nil, or_false, not_or] at needless
    refine .plain (by simp [needless, fine]) brace (fun same => absurd same needless.1) ?_ enclosed
    rintro rfl
    exact absurd ofText.mark (by simp [needless])
  have hex (digits : Nat) (needless : c ∉ ['\n', '\'', '"', '\\']) :
      hexEscapeLength digits (body ++ (q.delimiter ++ rest)) ≤ body.length + 2 ∧
        q.Encloses (('\\' :: c :: body).drop
          (hexEscapeLength digits (body ++ (q.delimiter ++ rest)))) := by
    unfold hexEscapeLength
    split
    next run =>
      obtain ⟨within, further⟩ := encloses_drop ofText
        (fun c member => by fin_cases member <;> rfl) rest enclosed run
      exact ⟨by omega, further⟩
    next => exact ⟨by omega, lone needless⟩
  unfold escapedLength
  split
  next same => exact hex 4 (by rw [beq_iff_eq.mp same]; decide)
  split
  next same => exact hex 8 (by rw [beq_iff_eq.mp same]; decide)
  split
  next same => exact hex 2 (by rw [beq_iff_eq.mp same]; decide)
  split
  next same => exact absurd (beq_iff_eq.mp same) fine.2
  split
  next same => exact absurd (beq_iff_eq.mp same) named
  split
  next digit =>
    have needless : c ∉ ['\n', '\'', '"', '\\'] := by
      intro member
      fin_cases member <;> cases digit
    have run : min 3 ((c :: (body ++ (q.delimiter ++ rest))).takeWhile Char.isDigit).length ≤
        ((c :: body ++ (q.delimiter ++ rest)).takeWhile Char.isDigit).length := Nat.min_le_right _ _
    obtain ⟨within, further⟩ := encloses_drop ofText
      (fun c member => by fin_cases member <;> rfl) rest (lone needless) run
    rw [List.length_cons] at within
    rw [Nat.add_comm 1]
    exact ⟨by omega, further⟩
  split
  next => exact ⟨by omega, enclosed⟩
  next other =>
    refine ⟨by omega, lone fun member => other ?_⟩
    fin_cases member <;> rfl

/-! ### Whole bodies -/

/-- The part at the start of a body, with what is left of it and lost at its end. -/
inductive PartOf (q : Quote) (body : List Char) : Grammar.BodyPart → Prop
  | plain {size : Nat} (within : 0 < size ∧ size ≤ body.length) (rest : q.Encloses (body.drop size))
      (lost : q.lost body = q.lost (body.drop size)) : PartOf q body (.plain size)
  | close (lost : q.lost body = body.length) :
      PartOf q body (.close (body.length + q.delimiter.length))

theorem partOf_piece {body text : List Char} {piece : Piece} (found : q.piece text = piece)
    (scanned : Scanned q 0 false body piece) (something : piece ≠ .nothing) :
    PartOf q body (Grammar.bodyPart q text) := by
  rw [Grammar.bodyPart, found]
  cases scanned with
  | @text size within going rest lost =>
      have positive : 0 < size := by simpa using going
      rw [Nat.zero_add]
      refine .plain ⟨positive, within⟩ rest ?_
      unfold Quote.lost
      split
      next raw => exact lost raw
      · rfl
  | close empty lost ends =>
      rw [Nat.zero_add]
      refine .close ?_
      unfold Quote.lost
      split
      next raw => rw [lost raw, Nat.zero_add]
      next raw => rw [ends (by simpa using raw), List.length_nil]
  | nothing => exact absurd rfl something

theorem piece_eq_scanBody {c : Char} (plain : q.isBrace c = false) (rest : List Char) :
    q.piece (c :: rest) = scanBody q 0 false (c :: rest) := by
  have plain' : (q.format && (c == '{' || c == '}')) = false := plain
  rw [Quote.piece, plain']
  rfl

theorem bodyPart_of_escape {text : List Char} (found : q.piece text = .nothing)
    (escape : 0 < escapeLength text) : Grammar.bodyPart q text = .plain (escapeLength text) := by
  rw [Grammar.bodyPart, found]
  dsimp only
  split
  next none => omega
  · rfl

theorem isBrace_backslash (q : Quote) : q.isBrace '\\' = false := by
  simp [Quote.isBrace]

theorem Scanned.starts {taken : Nat} {content : Bool} {body : List Char} {piece : Piece}
    (scanned : Scanned q taken content body piece) (none : piece = .nothing) :
    ∃ c rest, body = c :: rest ∧ (c = '\\' ∨ q.isBrace c = true) := by
  cases scanned with
  | text => cases none
  | close => cases none
  | nothing _ starts _ => exact starts

/-- The pair at the start of a body is a part of its own where braces follow before any content. -/
theorem partOf_pair (ofText : q.OfText)
    (rest : List Char) {c : Char} {body : List Char} (fine : c ∉ ['\x00', '\r'])
    (brace : q.isBrace c = false) (named : q.raw = false → c ≠ 'N') (enclosed : q.Encloses body)
    (none : scanBody q 0 false ('\\' :: c :: (body ++ (q.delimiter ++ rest))) = .nothing) :
    PartOf q ('\\' :: c :: body)
      (.plain (escapeLength ('\\' :: c :: (body ++ (q.delimiter ++ rest))))) := by
  cases raw : q.raw with
  | true =>
      obtain ⟨size, next, passed⟩ := exists_pairPassed ofText raw fine brace enclosed
      have scanned := scanBody_encloses ofText rest passed.rest (0 + size) (false || next)
      have same := passed.scan 0 false rest
      rw [List.cons_append, List.cons_append, none] at same
      rw [← same] at scanned
      cases scanned with
      | nothing empty _ resets =>
          have short := passed.short (by simpa using empty) (q.delimiter ++ rest)
          rw [List.cons_append, List.cons_append] at short
          rw [short]
          refine .plain ⟨by decide, by simp⟩ enclosed ?_
          have lost : q.lostFrom false (some 0) ('\\' :: c :: body) =
              q.lostFrom false (some 0) (('\\' :: c :: body).drop size) :=
            (passed.lost false (some 0)).trans (resets raw _ _)
          simp only [Quote.lost, raw, if_true, lost]
          rcases passed.line with rfl | line
          · rfl
          · have newline : q.isBrace '\n' = false := by simp [Quote.isBrace]
            have other : ('\n' == q.mark) = false := by
              rcases ofText.mark with mark | mark <;> rw [mark] <;> rfl
            change _ = q.lostFrom false (some 0) (('\\' :: c :: body).drop 2)
            rw [line, lostFrom_plain (by decide), newline, other]
            exact (resets raw _ _).symm
  | false =>
      obtain ⟨within, further⟩ := escapedLength_encloses ofText fine brace (named raw) enclosed rest
      refine .plain ⟨escapedLength_pos _ _, within⟩ further ?_
      simp [Quote.lost, raw]

/-- What stands at the start of a body is a part of it or its end. -/
theorem bodyPart_encloses (ofText : q.OfText)
    (rest : List Char) {body : List Char} (enclosed : q.Encloses body) :
    PartOf q body (Grammar.bodyPart q (body ++ (q.delimiter ++ rest))) := by
  have scanned := scanBody_encloses ofText rest enclosed 0 false
  cases enclosed with
  | nil =>
      obtain ⟨more, same, -⟩ := exists_delimiter q rest
      rw [List.nil_append, same] at scanned ⊢
      refine partOf_piece (piece_eq_scanBody (isBrace_mark ofText) more) scanned fun none => ?_
      obtain ⟨c, rest, same, -⟩ := scanned.starts none
      cases same
  | @plain c body plain brace =>
      refine partOf_piece (piece_eq_scanBody brace _) scanned fun none => ?_
      obtain ⟨d, rest, same, either⟩ := scanned.starts none
      obtain ⟨rfl, -⟩ := List.cons.inj same
      rcases either with rfl | brace'
      · simp at plain
      · rw [brace] at brace'
        cases brace'
  | @pair c body fine brace named enclosed =>
      have found := piece_eq_scanBody (isBrace_backslash q) (c :: (body ++ (q.delimiter ++ rest)))
      by_cases none : scanBody q 0 false ('\\' :: c :: (body ++ (q.delimiter ++ rest))) = .nothing
      · rw [List.cons_append, List.cons_append,
          bodyPart_of_escape (found.trans none) (escapedLength_pos _ _)]
        exact partOf_pair ofText rest fine brace named enclosed none
      · exact partOf_piece found scanned none
  | @brace c body brace enclosed =>
      have brace' : (q.format && (c == '{' || c == '}')) = true := brace
      have found : Grammar.bodyPart q (c :: c :: (body ++ (q.delimiter ++ rest))) = .plain 2 := by
        rw [Grammar.bodyPart, Quote.piece, if_pos brace', List.head?_cons, beq_self_eq_true]
        rfl
      rw [List.cons_append, List.cons_append, found]
      refine .plain ⟨by decide, by simp⟩ enclosed ?_
      unfold Quote.lost
      rw [lostFrom_brace brace, lostFrom_brace brace]
      rfl
  | @backslash c body brace enclosed =>
      have found := piece_eq_scanBody (isBrace_backslash q)
        (c :: c :: (body ++ (q.delimiter ++ rest)))
      by_cases none :
          scanBody q 0 false ('\\' :: c :: c :: (body ++ (q.delimiter ++ rest))) = .nothing
      · have alone : escapeLength ('\\' :: c :: c :: (body ++ (q.delimiter ++ rest))) = 1 := by
          have chars : c = '{' ∨ c = '}' := by simpa using (Bool.and_eq_true_iff.mp brace).2
          rcases chars with rfl | rfl <;> rfl
        rw [List.cons_append, List.cons_append, List.cons_append,
          bodyPart_of_escape (found.trans none) (escapedLength_pos _ _), alone]
        refine .plain ⟨by decide, by simp⟩ enclosed ?_
        unfold Quote.lost
        rw [Quote.lostFrom, if_pos brace]
        change (if q.raw then _ else _) =
          if q.raw then q.lostFrom false (some 0) (c :: c :: body) else 0
        rw [lostFrom_brace brace _ _ (c :: body)]
      · exact partOf_piece found scanned none

/-- A body is read up to its closing marks, without what is lost at its end. -/
theorem stringBody_encloses (ofText : q.OfText)
    (inside : Lexeme → Outcome Unit) (rest : List Char) (indents : List Nat) (inFormat : Bool)
    {body : List Char} (enclosed : q.Encloses body) (read : List Char) :
    Grammar.stringBody inside q read false ⟨body ++ (q.delimiter ++ rest), indents, inFormat⟩ =
      some (read.reverse ++ body.take (body.length - q.lost body), false,
        ⟨rest, indents, false⟩) := by
  -- What is lost is settled at the last piece, so that no part before it changes it.
  generalize size : body.length = n
  induction n using Nat.strongRecOn generalizing body read with
  | ind n ih =>
      subst size
      have part := bodyPart_encloses ofText rest enclosed
      rw [Grammar.stringBody]
      dsimp only
      generalize Grammar.bodyPart q (body ++ (q.delimiter ++ rest)) = found at part
      cases part with
      | close lost =>
          have skipped : (body ++ (q.delimiter ++ rest)).drop (body.length + q.delimiter.length) =
              rest := by
            rw [← List.append_assoc, ← List.length_append, List.drop_left]
          simp only [skipped, lost, Nat.sub_self, List.take_zero, List.append_nil]
      | @plain size within further lost =>
          obtain ⟨positive, within⟩ := within
          have dropped : (body ++ (q.delimiter ++ rest)).drop size =
              body.drop size ++ (q.delimiter ++ rest) := List.drop_append_of_le_length within
          have shorter : (body.drop size).length < body.length := by
            rw [List.length_drop]
            omega
          have less : (body.drop size ++ (q.delimiter ++ rest)).length <
              (body ++ (q.delimiter ++ rest)).length := by
            simp only [List.length_append] at shorter ⊢
            omega
          have taken : (body ++ (q.delimiter ++ rest)).take
              ((body ++ (q.delimiter ++ rest)).length -
                (body.drop size ++ (q.delimiter ++ rest)).length) = body.take size := by
            have count : (body ++ (q.delimiter ++ rest)).length -
                (body.drop size ++ (q.delimiter ++ rest)).length = size := by
              simp only [List.length_append, List.length_drop]
              omega
            rw [count, List.take_append_of_le_length within]
          have kept : body.take (body.length - q.lost body) =
              body.take size ++
                (body.drop size).take ((body.drop size).length - q.lost (body.drop size)) := by
            have few := lost_le q (body.drop size)
            rw [← List.take_add, lost]
            congr 1
            rw [List.length_drop] at few ⊢
            omega
          simp only [dropped, if_pos less, taken]
          rw [ih _ shorter further _ rfl, List.reverseAux_eq, List.reverse_append,
            List.reverse_reverse, List.append_assoc, ← kept]

end Respell.Source
