import Respell.Proofs.Cut.Run
import Respell.Source.Grammar.Strings

/-!
Strings in a text that is cut at a break. The ways to read an interpolation and a string body are
relations beside the functions that read them. By induction on such a way each step shortens the
text, and where the longer text has a string that ends before the cut, the cut text has it too.
-/

set_option autoImplicit false

namespace Respell.Source

variable {tail : List Char}

/-! ### Pieces -/

/-- A piece that ends at a place or after it; a closing quote ends after it. -/
def Piece.Beyond (place : Nat) : Piece → Prop
  | text length => place ≤ length
  | close length => place < length
  | nothing => True

theorem Piece.Beyond.mono {place nearer : Nat} {piece : Piece} (beyond : piece.Beyond place)
    (near : nearer ≤ place) : piece.Beyond nearer := by
  cases piece <;> simp only [Beyond] at beyond ⊢ <;> omega

theorem Piece.Beyond.after {piece : Piece} (beyond : piece.Beyond 0) (passed : Nat) :
    (piece.after passed).Beyond passed := by
  cases piece <;> simp only [Piece.after, Beyond] at beyond ⊢ <;> omega

/-- What a character inside a string can mean: a piece ends, or what is passed is a pair that is
escaped in a raw string, a letter after a backslash and one more, or the character alone. -/
inductive BodyStep.Possible (q : Quote) (content : Bool) (rest : List Char) : BodyStep → Prop
  | nothing : Possible q content rest (.ends .nothing)
  | text (length : Nat) : Possible q content rest (.ends (.text length))
  | close {length : Nat} : 0 < length → Possible q content rest (.ends (.close length))
  | escaped : Possible q content rest (.pass (rawEscapeLength q.mark rest + 1) content)
  | wide : 2 ≤ rest.length → Possible q content rest (.pass 3 true)
  | plain : Possible q content rest (.pass 1 true)

theorem bodyStep_possible (q : Quote) (content : Bool) (c : Char) (rest : List Char) :
    (q.bodyStep content c rest).Possible q content rest := by
  have text : BodyStep.Possible q content rest (.ends (if content then .text 0 else .nothing)) := by
    cases content with
    | true => exact .text 0
    | false => exact .nothing
  have closes : 0 < if q.triple then 3 else 1 := by
    cases q.triple <;> decide
  have wide (several : ¬(rest.drop 1).isEmpty = true) : 2 ≤ rest.length := by
    match rest with
    | [] => simp at several
    | [d] => simp at several
    | d :: e :: rest => simp
  unfold Quote.bodyStep
  -- one line for each test of the step, in its order
  refine iteInduction (fun _ => text) fun _ => ?_
  refine iteInduction (fun _ => .nothing) fun _ => ?_
  refine iteInduction (fun _ => ?_) fun _ => iteInduction (fun _ => ?_) fun _ => ?_
  · refine iteInduction (fun _ => .escaped) fun _ => iteInduction (fun _ => ?_) fun _ => text
    exact iteInduction (fun _ => .nothing) fun several => .wide (wide several)
  · refine iteInduction (fun _ => .text _) fun _ => ?_
    exact iteInduction (fun _ => text) fun _ => .close closes
  · exact iteInduction (fun _ => .nothing) fun _ => .plain

theorem bodyStep_beyond {q : Quote} {content : Bool} {c : Char} {rest : List Char} {piece : Piece}
    (ends : q.bodyStep content c rest = .ends piece) : piece.Beyond 0 := by
  have possible := bodyStep_possible q content c rest
  rw [ends] at possible
  cases possible with
  | nothing => trivial
  | text length => exact Nat.zero_le length
  | close positive => exact positive

theorem scanBody_beyond (q : Quote) (taken : Nat) (content : Bool) (text : List Char) :
    (scanBody q taken content text).Beyond taken := by
  fun_induction scanBody q taken content text with
  | case1 => trivial
  | case2 taken content c rest length next passed ih => exact ih.mono (Nat.le_add_right ..)
  | case3 taken content c rest piece ends => exact (bodyStep_beyond ends).after taken

theorem lineEndLength_le (text : List Char) : lineEndLength text ≤ text.length := by
  unfold lineEndLength
  split
  next both => exact (List.isPrefixOf_iff_prefix.mp both).length_le
  · split
    next one => cases text <;> simp_all
    · exact Nat.zero_le _

theorem lineEndLength_append (text : List Char) :
    lineEndLength (text ++ tail) = lineEndLength text ∨
      text.length < lineEndLength (text ++ tail) ∧ lineEndLength text = text.length := by
  match text with
  | [] => exact (Nat.eq_zero_or_pos (lineEndLength tail)).imp_right fun some => ⟨some, rfl⟩
  | [c] =>
      have both : ['\r', '\n'].isPrefixOf [c] = false := by
        simp [List.isPrefixOf]
      simp only [lineEndLength, List.cons_append, List.nil_append, both, List.head?_cons,
        Option.any_some, List.length_singleton]
      split
      next ends =>
        have feed : '\r' = c := by
          rw [List.isPrefixOf_cons_cons, Bool.and_eq_true, beq_iff_eq] at ends
          exact ends.1
        exact .inr ⟨by decide, by rw [← feed]; rfl⟩
      · exact .inl rfl
  | c :: d :: rest =>
      left
      simp [lineEndLength, List.isPrefixOf_cons_cons]

theorem rawEscapeLength_le (mark : Char) (rest : List Char) :
    rawEscapeLength mark rest ≤ rest.length := by
  unfold rawEscapeLength
  dsimp only
  split
  next marked =>
    have line := lineEndLength_le (rest.drop 1)
    rw [List.length_drop] at line
    have nonempty : rest ≠ [] := by
      rintro rfl
      simp at marked
    have := List.length_pos_iff.mpr nonempty
    omega
  next => simpa using lineEndLength_le rest

theorem rawEscapeLength_cons (mark c : Char) (rest : List Char) :
    rawEscapeLength mark (c :: rest) =
      if c == mark || c == '\\' then 1 + lineEndLength rest else lineEndLength (c :: rest) := by
  change (if c == mark || c == '\\' then 1 else 0) +
    lineEndLength ((c :: rest).drop (if c == mark || c == '\\' then 1 else 0)) = _
  split <;> simp

theorem rawEscapeLength_append (mark : Char) (rest : List Char) :
    rawEscapeLength mark (rest ++ tail) = rawEscapeLength mark rest ∨
      rest.length < rawEscapeLength mark (rest ++ tail) ∧
        rawEscapeLength mark rest = rest.length := by
  cases rest with
  | nil => exact (Nat.eq_zero_or_pos (rawEscapeLength mark tail)).imp_right fun some => ⟨some, rfl⟩
  | cons c rest =>
      rw [List.cons_append, rawEscapeLength_cons, rawEscapeLength_cons, List.length_cons]
      split
      · have line := @lineEndLength_append tail rest
        omega
      · exact @lineEndLength_append tail (c :: rest)

theorem head?_append_cut (cut : atBreak tail = true) {p : Char → Bool} (inner : Inner p)
    (text : List Char) : (text ++ tail).head?.any p = text.head?.any p := by
  cases text with
  | cons c rest => rfl
  | nil =>
      cases tail with
      | nil => rfl
      | cons c rest => simpa using inner.of_atBreak cut

theorem head?_append_eq (cut : atBreak tail = true) {c : Char} (inner : c ∉ breakChars)
    (text : List Char) : ((text ++ tail).head? == some c) = (text.head? == some c) := by
  cases text with
  | cons d rest => rfl
  | nil =>
      cases tail with
      | nil => rfl
      | cons d rest => simpa using not_eq_of_atBreak cut inner

theorem bodyStep_append (cut : atBreak tail = true) (q : Quote) (content : Bool) (c : Char)
    (rest : List Char) :
    q.bodyStep content c (rest ++ tail) = q.bodyStep content c rest ∨
      ∃ length next, q.bodyStep content c (rest ++ tail) = .pass length next ∧
        rest.length + 1 < length ∧
        (q.bodyStep content c rest = .ends .nothing ∨
          q.bodyStep content c rest = .pass (rest.length + 1) next) := by
  unfold Quote.bodyStep
  dsimp only
  by_cases brace : (q.format && (c == '{' || c == '}')) = true
  · exact .inl (by rw [if_pos brace, if_pos brace])
  by_cases null : (c == '\x00') = true
  · exact .inl (by rw [if_neg brace, if_neg brace, if_pos null, if_pos null])
  by_cases backslash : (c == '\\') = true
  · simp only [if_neg brace, if_neg null, if_pos backslash]
    by_cases raw : q.raw = true
    · simp only [if_pos raw]
      rcases @rawEscapeLength_append tail q.mark rest with same | ⟨longer, whole⟩
      · exact .inl (by rw [same])
      · exact .inr ⟨_, _, rfl, by omega, .inr (by rw [whole])⟩
    · have letter := head?_append_cut cut (p := ['N', 'u', 'U'].contains) (by decide) rest
      simp only [if_neg raw, letter]
      by_cases wide : (q.bytes && rest.head?.any ['N', 'u', 'U'].contains) = true
      · simp only [if_pos wide]
        cases rest with
        | nil => simp at wide
        | cons d rest =>
            cases rest with
            | cons e rest => exact .inl rfl
            | nil =>
                cases tail with
                | nil => exact .inl rfl
                | cons e more => exact .inr ⟨3, true, rfl, by simp, .inl rfl⟩
      · exact .inl (by simp only [if_neg wide])
  · left
    have inner : ∀ d ∈ [q.mark, q.mark], d ∉ breakChars := by
      intro d member
      have same : d = q.mark := by simpa using member
      exact same ▸ mark_inner q.isMark_mark
    have pair := isPrefixOf_append_cut cut inner rest
    have next := head?_append_eq cut (mark_inner q.isMark_mark) rest
    simp only [if_neg brace, if_neg null, if_neg backslash, pair, next]

theorem bodyStep_pass {q : Quote} {content next : Bool} {c : Char} {rest : List Char}
    {length : Nat} (passed : q.bodyStep content c rest = .pass length next) :
    1 ≤ length ∧ length ≤ rest.length + 1 := by
  have possible := bodyStep_possible q content c rest
  rw [passed] at possible
  cases possible with
  | escaped =>
      have raw := rawEscapeLength_le q.mark rest
      omega
  | wide several => omega
  | plain => omega

/-- A piece of a longer text is the one of the cut text, or it ends after the cut. -/
theorem scanBody_append (cut : atBreak tail = true) (q : Quote) (taken : Nat) (content : Bool)
    (text : List Char) :
    scanBody q taken content (text ++ tail) = scanBody q taken content text ∨
      (scanBody q taken content (text ++ tail)).Beyond (taken + text.length) ∧
        scanBody q taken content text = .nothing := by
  fun_induction scanBody q taken content text with
  | case1 taken content => exact .inr ⟨scanBody_beyond q taken content tail, rfl⟩
  | case2 taken content c rest length next passed ih =>
      obtain ⟨positive, within⟩ := bodyStep_pass passed
      rw [List.cons_append, scanBody]
      rcases bodyStep_append cut q content c rest with
        same | ⟨further, next', passed', beyond, ends | whole⟩
      · rw [same, passed]
        dsimp only
        rw [List.drop_append_of_le_length (by omega)]
        refine ih.imp_right fun past => ⟨past.1.mono ?_, past.2⟩
        rw [List.length_drop, List.length_cons]
        omega
      · rw [passed] at ends
        cases ends
      · obtain ⟨rfl, rfl⟩ := BodyStep.pass.inj (passed.symm.trans whole)
        rw [passed']
        dsimp only
        refine .inr ⟨(scanBody_beyond ..).mono ?_, ?_⟩
        · rw [List.length_cons]
          omega
        · rw [Nat.add_sub_cancel, List.drop_length, scanBody]
  | case3 taken content c rest piece ends =>
      rw [List.cons_append, scanBody]
      rcases bodyStep_append cut q content c rest with
        same | ⟨further, next, passed, beyond, stops | whole⟩
      · rw [same, ends]
        exact .inl rfl
      · obtain rfl := BodyStep.ends.inj (ends.symm.trans stops)
        rw [passed]
        refine .inr ⟨(scanBody_beyond ..).mono ?_, rfl⟩
        rw [List.length_cons]
        omega
      · rw [ends] at whole
        cases whole

theorem piece_beyond (q : Quote) (text : List Char) : (q.piece text).Beyond 0 := by
  unfold Quote.piece
  split
  · trivial
  · split
    · split <;> simp [Piece.Beyond]
    · exact scanBody_beyond ..

theorem piece_append (cut : atBreak tail = true) (q : Quote) (text : List Char) :
    q.piece (text ++ tail) = q.piece text ∨
      (q.piece (text ++ tail)).Beyond text.length ∧ q.piece text = .nothing := by
  cases text with
  | nil => exact .inr ⟨piece_beyond q tail, rfl⟩
  | cons c rest =>
      rw [List.cons_append, Quote.piece, Quote.piece]
      split
      next brace =>
        have inner : c ∉ breakChars := by
          have char : c = '{' ∨ c = '}' := by simp_all
          rcases char with rfl | rfl <;> decide
        rw [head?_append_eq cut inner]
        exact .inl rfl
      · have scan := scanBody_append cut q 0 false (c :: rest)
        rwa [Nat.zero_add] at scan

/-! ### Escapes -/

theorem hexEscapeLength_append (cut : atBreak tail = true) (digits : Nat) (rest : List Char) :
    hexEscapeLength digits (rest ++ tail) = hexEscapeLength digits rest := by
  rw [hexEscapeLength, hexEscapeLength, takeWhile_append_cut (by decide) cut]

theorem nameEscapeLength_append (rest : List Char) :
    nameEscapeLength (rest ++ tail) = nameEscapeLength rest ∨
      rest.length + 3 ≤ nameEscapeLength (rest ++ tail) := by
  have within := (List.takeWhile_prefix (· != '}') (l := rest)).length_le
  unfold nameEscapeLength
  rw [List.takeWhile_append]
  dsimp only
  split
  next whole =>
    rw [List.length_append, whole]
    split
    · left
      simp
    · right
      omega
  next part =>
    left
    have left : rest.drop (rest.takeWhile (· != '}')).length ≠ [] := by
      rw [ne_eq, List.drop_eq_nil_iff]
      omega
    obtain ⟨c, more, same⟩ := List.exists_cons_of_ne_nil left
    rw [List.drop_append_of_le_length within, same]
    rfl

theorem ite_eq_or_le {condition : Prop} [Decidable condition] {place a a' b b' : Nat}
    (yes : a = a' ∨ place ≤ a) (no : b = b' ∨ place ≤ b) :
    (if condition then a else b) = (if condition then a' else b') ∨
      place ≤ if condition then a else b := by
  by_cases holds : condition
  · simpa only [if_pos holds] using yes
  · simpa only [if_neg holds] using no

theorem escapedLength_append (cut : atBreak tail = true) (c : Char) (rest : List Char) :
    escapedLength c (rest ++ tail) = escapedLength c rest ∨
      rest.length + 2 ≤ escapedLength c (rest ++ tail) := by
  have line : (if (rest ++ tail).head? == some '\n' then 3 else 1) =
        (if rest.head? == some '\n' then 3 else 1) ∨
      rest.length + 2 ≤ if (rest ++ tail).head? == some '\n' then 3 else 1 := by
    cases rest with
    | cons d rest => exact .inl rfl
    | nil =>
        by_cases ends : (([] ++ tail).head? == some '\n') = true
        · exact .inr (by rw [if_pos ends]; decide)
        · exact .inl (by rw [if_neg ends]; rfl)
  have name : (if rest.head? == some '{' then nameEscapeLength ((rest ++ tail).drop 1) else 1) =
        (if rest.head? == some '{' then nameEscapeLength (rest.drop 1) else 1) ∨
      rest.length + 2 ≤
        if rest.head? == some '{' then nameEscapeLength ((rest ++ tail).drop 1) else 1 := by
    cases rest with
    | nil => exact .inl rfl
    | cons d rest => exact ite_eq_or_le (nameEscapeLength_append rest) (.inl rfl)
  unfold escapedLength
  rw [hexEscapeLength_append cut, hexEscapeLength_append cut, hexEscapeLength_append cut,
    ← List.cons_append, takeWhile_append_cut (by decide) cut,
    head?_append_eq cut (c := '{') (by decide)]
  exact ite_eq_or_le (.inl rfl) <| ite_eq_or_le (.inl rfl) <| ite_eq_or_le (.inl rfl) <|
    ite_eq_or_le line <| ite_eq_or_le name (.inl rfl)

theorem escapedLength_pos (c : Char) (rest : List Char) : 1 ≤ escapedLength c rest := by
  have hex (digits : Nat) : 1 ≤ hexEscapeLength digits rest :=
    iteInduction (fun _ => Nat.le_add_left 1 (digits + 1)) fun _ => le_rfl
  have name : 1 ≤ nameEscapeLength (rest.drop 1) :=
    iteInduction (fun _ => le_rfl) fun _ => Nat.le_add_left 1 _
  unfold escapedLength
  refine iteInduction (fun _ => hex 4) fun _ => iteInduction (fun _ => hex 8) fun _ => ?_
  refine iteInduction (fun _ => hex 2) fun _ => iteInduction (fun _ => ?_) fun _ => ?_
  · exact iteInduction (fun _ => by decide) fun _ => le_rfl
  refine iteInduction (fun _ => iteInduction (fun _ => name) fun _ => le_rfl) fun _ => ?_
  refine iteInduction (fun _ => Nat.le_add_right 1 _) fun _ => ?_
  exact iteInduction (fun _ => by decide) fun _ => le_rfl

/-- An escape of a longer text is the one of the cut text, or it goes up to the cut. -/
theorem escapeLength_append (cut : atBreak tail = true) (text : List Char) :
    escapeLength (text ++ tail) = escapeLength text ∨
      text.length ≤ escapeLength (text ++ tail) := by
  match text with
  | [] => exact .inr (Nat.zero_le _)
  | [c] =>
      cases tail with
      | nil => exact .inl rfl
      | cons d more =>
          simp only [List.cons_append, List.nil_append, escapeLength]
          split
          · exact .inr (escapedLength_pos d more)
          · exact .inl rfl
  | c :: d :: rest =>
      simp only [List.cons_append, escapeLength]
      split
      · exact escapedLength_append cut d rest
      · exact .inl rfl

/-! ### Parts -/

open Grammar

/-- A part of a longer text says that the cut text, of some size, has the same part, if it leaves
more than what follows the cut; a closing quote may end at the cut. -/
def Grammar.BodyPart.Decides (tail : List Char) (size : Nat) (full cut : BodyPart) : Prop :=
  match full with
  | .close length => length ≤ size → cut = .close length
  | .plain length => length < size → cut = .plain length
  | .interpolation rest =>
    tail.length ≤ rest.length → ∃ left, rest = left ++ tail ∧ cut = .interpolation left
  | .nothing => True

/-- Where all of the text before the cut is blank, each part reaches over the cut. -/
private theorem betweenPieces_of_blank {text : List Char} (blank : text.dropWhile isBlank = [])
    (part : BodyPart) : (betweenPieces (text ++ tail)).Decides tail text.length part := by
  have within : (tail.dropWhile isBlank).length ≤ tail.length :=
    (List.dropWhile_suffix isBlank).length_le
  have skipped : (text ++ tail).dropWhile isBlank = tail.dropWhile isBlank := by
    rw [List.dropWhile_append, blank]
    rfl
  unfold betweenPieces
  dsimp only
  rw [skipped, List.length_append]
  generalize tail.dropWhile isBlank = rest at within
  split
  next brace =>
      intro long
      have nonempty : rest ≠ [] := by
        rintro rfl
        simp at brace
      have := List.length_pos_iff.mpr nonempty
      rw [List.length_drop] at long
      omega
  next =>
      split
      · intro short
        omega
      · split
        next left continued =>
            have shorter := (length_of_continuation? continued).1
            split
            · trivial
            · intro short
              omega
        · trivial

/-- Where something before the cut is not blank, the part starts with it. -/
private theorem betweenPieces_of_solid {text : List Char} (solid : text.dropWhile isBlank ≠ []) :
    (betweenPieces (text ++ tail)).Decides tail text.length (betweenPieces text) := by
  have within : (text.dropWhile isBlank).length ≤ text.length :=
    (List.dropWhile_suffix isBlank).length_le
  have skipped : (text ++ tail).dropWhile isBlank = text.dropWhile isBlank ++ tail := by
    rw [List.dropWhile_append, if_neg (by simpa using solid)]
  unfold betweenPieces
  dsimp only
  rw [skipped, List.length_append]
  generalize text.dropWhile isBlank = rest at within solid
  obtain ⟨c, more, rfl⟩ := List.exists_cons_of_ne_nil solid
  have blanks : text.length + tail.length - (c :: more ++ tail).length =
      text.length - (c :: more).length := by
    rw [List.length_append]
    omega
  have head : (c :: more ++ tail).head? = (c :: more).head? := rfl
  rw [blanks, head]
  split
  · exact fun _ => ⟨more, rfl, rfl⟩
  · split
    · intro short
      rw [List.takeWhile_append] at short ⊢
      split at short
      next whole =>
          rw [List.length_append] at short
          omega
      next part => rw [if_neg part]
    · split
      next left continued =>
          split
          · trivial
          · intro short
            obtain ⟨left', rfl, continued'⟩ := continuation?_append solid continued (by omega)
            rw [continued']
            dsimp only
            rw [List.length_append, Nat.add_sub_add_right]
      · trivial

theorem betweenPieces_append (text : List Char) :
    (betweenPieces (text ++ tail)).Decides tail text.length (betweenPieces text) := by
  by_cases blank : text.dropWhile isBlank = []
  · exact betweenPieces_of_blank blank _
  · exact betweenPieces_of_solid blank

theorem bodyPart_append (cut : atBreak tail = true) (quote : Quote) (text : List Char) :
    (bodyPart quote (text ++ tail)).Decides tail text.length (bodyPart quote text) := by
  unfold bodyPart
  by_cases same : quote.piece (text ++ tail) = quote.piece text
  · rw [same]
    cases quote.piece text with
    | close length => exact fun _ => rfl
    | text length => exact fun _ => rfl
    | nothing =>
        dsimp only
        rcases escapeLength_append cut text with same | long
        · rw [same]
          split
          · exact betweenPieces_append text
          · exact fun _ => rfl
        · split
          next none =>
            have empty : text = [] := List.eq_nil_of_length_eq_zero (by omega)
            subst empty
            exact betweenPieces_append []
          · intro short
            omega
  · obtain ⟨beyond, none⟩ := (piece_append cut quote text).resolve_left same
    cases piece : quote.piece (text ++ tail) with
    | close length =>
        rw [piece] at beyond
        exact fun short => absurd beyond (Nat.not_lt.mpr short)
    | text length =>
        rw [piece] at beyond
        exact fun short => absurd beyond (Nat.not_le.mpr short)
    | nothing => exact absurd (piece.trans none.symm) same

/-! ### Interpolations -/

section Interpolation

variable {inside inside' : Lexeme → Outcome Unit}

theorem formatSpecifier_nil {input : Input} (text : input.rest = []) :
    formatSpecifier inside input = none := by
  rw [formatSpecifier]
  split
  · rfl
  next other => simp [text] at other

theorem formatSpecifier_cons {input : Input} {c : Char} {rest : List Char}
    (text : input.rest = c :: rest) :
    formatSpecifier inside input =
      if c == '}' then some { input with rest }
      else if c == '{' then
        match interpolation inside { input with rest } with
        | some after =>
          if after.rest.length < input.rest.length then formatSpecifier inside after else none
        | none => none
      else formatSpecifier inside { input with rest } := by
  rw [formatSpecifier]
  split
  next other => simp [text] at other
  next d left other =>
    obtain ⟨rfl, rfl⟩ := List.cons.inj (text.symm.trans other)
    rfl

/-- Where a format specifier starts: after the colon that a lexeme starts with. -/
def Lexeme.afterColon (stop : Lexeme) : Input := { stop.after with rest := stop.start.drop 1 }

/-- A place in an interpolation: before what is interpolated, or after the colon that follows it. -/
inductive Place
  | value
  | format

/-- What reads an interpolation from a place on. -/
def Place.reader (inside : Lexeme → Outcome Unit) : Place → Input → Option Input
  | value => interpolation inside
  | format => formatSpecifier inside

/-- The ways to read an interpolation from a place on, up to the text after its closing brace. -/
inductive Interpolates (inside : Lexeme → Outcome Unit) : Place → Input → Input → Prop
  | closed {input : Input} {stop : Lexeme} (read : inside (input.next .operand) = ⟨some (), stop⟩)
      (brace : stop.token = .symbol "\x7d") : Interpolates inside .value input stop.after
  | formatted {input after : Input} {stop : Lexeme}
      (read : inside (input.next .operand) = ⟨some (), stop⟩)
      (colon : stop.token = .symbol ":" ∨ stop.token = .symbol ":=")
      (less : stop.afterColon.rest.length < input.rest.length)
      (rest : Interpolates inside .format stop.afterColon after) :
      Interpolates inside .value input after
  | ended {input : Input} {rest : List Char} (text : input.rest = '}' :: rest) :
      Interpolates inside .format input { input with rest }
  | nested {input middle after : Input} {rest : List Char} (text : input.rest = '{' :: rest)
      (inner : Interpolates inside .value { input with rest } middle)
      (less : middle.rest.length < input.rest.length)
      (outer : Interpolates inside .format middle after) : Interpolates inside .format input after
  | passed {input after : Input} {c : Char} {rest : List Char} (text : input.rest = c :: rest)
      (notClose : c ≠ '}') (notOpen : c ≠ '{')
      (more : Interpolates inside .format { input with rest } after) :
      Interpolates inside .format input after

namespace Interpolates

variable {place : Place} {input after : Input}

theorem reader_eq_some (way : Interpolates inside place input after) :
    place.reader inside input = some after := by
  induction way with
  | closed read brace =>
      rw [Place.reader, interpolation, read]
      simp [Lexeme.isSymbol, brace]
  | formatted read colon less rest ih =>
      rw [Place.reader, interpolation, read]
      have shorter := less
      rw [Lexeme.afterColon] at shorter
      rcases colon with colon | colon
      all_goals
        simp only [Lexeme.isSymbol, colon, shorter]
        exact ih
  | ended text =>
      rw [Place.reader, formatSpecifier_cons text]
      rfl
  | nested text inner less outer first second =>
      have read : interpolation inside _ = some _ := first
      rw [Place.reader, formatSpecifier_cons text, read]
      simpa [less, Place.reader] using second
  | passed text notClose notOpen more ih =>
      rw [Place.reader, formatSpecifier_cons text]
      simpa [notClose, notOpen, Place.reader] using ih

theorem of_reader (read : place.reader inside input = some after) :
    Interpolates inside place input after := by
  generalize size : input.rest.length = n
  induction n using Nat.strongRecOn generalizing place input after with
  | ind n ih =>
      cases place with
      | value =>
          rw [Place.reader, interpolation] at read
          generalize outcome : inside (input.next .operand) = found at read
          obtain ⟨value, stop⟩ := found
          dsimp only at read
          cases value with
          | none => cases read
          | some _ =>
              rw [if_neg (by simp)] at read
              by_cases brace : stop.isSymbol "\x7d" = true
              · rw [if_pos brace] at read
                obtain rfl := Option.some.inj read
                exact .closed outcome (eq_of_beq brace)
              · rw [if_neg brace] at read
                obtain ⟨colon, read⟩ := Option.ite_none_right_eq_some.mp read
                obtain ⟨less, read⟩ := Option.ite_none_right_eq_some.mp read
                have tokens := (Bool.or_eq_true_iff.mp colon).imp eq_of_beq eq_of_beq
                exact .formatted outcome tokens less (ih _ (size ▸ less) read rfl)
      | format =>
          rw [Place.reader] at read
          cases text : input.rest with
          | nil =>
              rw [formatSpecifier_nil text] at read
              cases read
          | cons c rest =>
              have length : rest.length < n := by
                rw [← size, text]
                exact Nat.lt_succ_self _
              rw [formatSpecifier_cons text] at read
              by_cases close : c = '}'
              · subst close
                obtain rfl := Option.some.inj read
                exact .ended text
              rw [if_neg (by simpa using close)] at read
              by_cases brace : c = '{'
              · subst brace
                rw [if_pos (by rfl)] at read
                cases inner : interpolation inside { input with rest } with
                | none =>
                    rw [inner] at read
                    cases read
                | some middle =>
                    rw [inner] at read
                    obtain ⟨less, read⟩ := Option.ite_none_right_eq_some.mp read
                    exact .nested text (ih _ length inner rfl) less (ih _ (size ▸ less) read rfl)
              · rw [if_neg (by simpa using brace)] at read
                exact .passed text close brace (ih _ length read rfl)

end Interpolates

/-- An input further on, in the same blocks. -/
structure Input.Past (input after : Input) : Prop where
  /-- It is a part of the text. -/
  suffix : after.rest <:+ input.rest
  /-- Something was passed. -/
  shorter : after.rest.length < input.rest.length
  /-- The open blocks are the same. -/
  indents : after.indents = input.indents

namespace Input.Past

theorem trans {first second third : Input} (front : first.Past second) (back : second.Past third) :
    first.Past third :=
  ⟨back.suffix.trans front.suffix, back.shorter.trans front.shorter,
    back.indents.trans front.indents⟩

theorem of_cons {input : Input} {c : Char} {rest : List Char} (text : input.rest = c :: rest) :
    input.Past { input with rest } := by
  refine ⟨?_, ?_, rfl⟩ <;> rw [text]
  · exact List.suffix_cons c rest
  · exact Nat.lt_succ_self _

end Input.Past

/-- What is interpolated is a part of the text, in the same blocks. -/
private theorem within_of_reads (reads : ∀ lexeme : Lexeme, (inside lexeme).Reads lexeme)
    {input : Input} {stop : Lexeme} (read : inside (input.next .operand) = ⟨some (), stop⟩) :
    stop.start <:+ input.rest ∧ stop.after.indents = input.indents := by
  have inner := reads (input.next .operand)
  rw [read] at inner
  have start : (input.next .operand).start <:+ input.rest := start_nextLexeme
  have indents : (input.next .operand).after.indents = input.indents := indents_nextLexeme rfl
  exact ⟨inner.onward.start.trans start, (inner.level () rfl).indents.trans indents⟩

/-- Reading an interpolation or what follows its colon passes text. -/
theorem Interpolates.past (reads : ∀ lexeme : Lexeme, (inside lexeme).Reads lexeme) {place : Place}
    {input after : Input} (way : Interpolates inside place input after) : input.Past after := by
  induction way with
  | @closed input stop read brace =>
      obtain ⟨within, level⟩ := within_of_reads reads read
      have passes := stop.passes (by rw [brace]; rfl)
      exact ⟨stop.after_suffix.trans within, passes.trans_le within.length_le, level⟩
  | formatted read colon less rest ih =>
      obtain ⟨within, level⟩ := within_of_reads reads read
      have front : Input.Past _ (Lexeme.afterColon _) :=
        ⟨(List.drop_suffix 1 _).trans within, less, level⟩
      exact front.trans ih
  | ended text => exact .of_cons text
  | nested text inner less outer first second =>
      exact ((Input.Past.of_cons text).trans first).trans second
  | passed text notClose notOpen more ih => exact (Input.Past.of_cons text).trans ih

/-! ### String bodies -/

theorem close_of_bodyPart {quote : Quote} {text : List Char} {length : Nat}
    (closes : bodyPart quote text = .close length) : (text.drop length).length < text.length := by
  have piece : quote.piece text = .close length := by
    unfold bodyPart at closes
    cases found : quote.piece text with
    | close other => simpa [found] using closes
    | text other => simp [found] at closes
    | nothing =>
        simp only [found, betweenPieces] at closes
        repeat' split at closes
        all_goals cases closes
  have positive : 0 < length := by
    have beyond := piece_beyond quote text
    rwa [piece] at beyond
  have nonempty : text ≠ [] := by
    rintro rfl
    cases piece
  have := List.length_pos_iff.mpr nonempty
  rw [List.length_drop]
  omega

theorem interpolation_of_bodyPart {quote : Quote} {text rest : List Char}
    (opens : bodyPart quote text = .interpolation rest) : rest <:+ text := by
  unfold bodyPart betweenPieces at opens
  dsimp only at opens
  split at opens
  · cases opens
  · cases opens
  · split at opens
    · split at opens
      · rw [← BodyPart.interpolation.inj opens]
        exact (List.drop_suffix _ _).trans (List.dropWhile_suffix _)
      · repeat' split at opens
        all_goals cases opens
    · cases opens

/-- One step inside a string: text is passed, or an interpolation, after which the string is an
interpolated one. -/
inductive BodyAdvance (inside : Lexeme → Outcome Unit) (quote : Quote) (interpolated : Bool)
    (input : Input) : Bool → Input → Prop
  | text {length : Nat} (part : bodyPart quote input.rest = .plain length) :
      BodyAdvance inside quote interpolated input interpolated
        { input with rest := input.rest.drop length }
  | interpolation {rest : List Char} {middle : Input}
      (part : bodyPart quote input.rest = .interpolation rest)
      (inner : Interpolates inside .value { input with rest } middle) :
      BodyAdvance inside quote interpolated input true middle

/-- The way to read a string body up to its closing quote, as long as each step passes something. -/
inductive ReadsBody (inside : Lexeme → Outcome Unit) (quote : Quote) :
    List Char → Bool → Input → List Char × Bool × Input → Prop
  | closed {read : List Char} {interpolated : Bool} {input : Input} {length : Nat}
      (part : bodyPart quote input.rest = .close length) :
      ReadsBody inside quote read interpolated input
        (read.reverse, interpolated,
          { input with rest := input.rest.drop length, inFormat := false })
  | advanced {read : List Char} {interpolated whether : Bool} {input middle : Input}
      {result : List Char × Bool × Input}
      (step : BodyAdvance inside quote interpolated input whether middle)
      (less : middle.rest.length < input.rest.length)
      (rest : ReadsBody inside quote
        ((input.rest.take (input.rest.length - middle.rest.length)).reverseAux read) whether middle
        result) :
      ReadsBody inside quote read interpolated input result

theorem stringBody_eq_some_iff {quote : Quote} {read : List Char} {interpolated : Bool}
    {input : Input} {result : List Char × Bool × Input} :
    stringBody inside quote read interpolated input = some result ↔
      ReadsBody inside quote read interpolated input result := by
  constructor
  · intro found
    generalize size : input.rest.length = n
    induction n using Nat.strongRecOn generalizing read interpolated input with
    | ind n ih =>
        rw [stringBody] at found
        dsimp only at found
        cases part : bodyPart quote input.rest with
        | close length =>
            rw [part] at found
            obtain rfl := Option.some.inj found
            exact .closed part
        | plain length =>
            rw [part] at found
            obtain ⟨less, found⟩ := Option.ite_none_right_eq_some.mp found
            exact .advanced (.text part) less (ih _ (size ▸ less) found rfl)
        | interpolation rest =>
            rw [part] at found
            dsimp only at found
            cases inner : interpolation inside { input with rest } with
            | none =>
                rw [inner] at found
                cases found
            | some middle =>
                rw [inner] at found
                obtain ⟨less, found⟩ := Option.ite_none_right_eq_some.mp found
                exact .advanced (.interpolation part (.of_reader inner)) less
                  (ih _ (size ▸ less) found rfl)
        | nothing =>
            rw [part] at found
            cases found
  · intro way
    induction way with
    | closed part => rw [stringBody, part]
    | advanced step less rest ih =>
        rw [stringBody]
        cases step with
        | text part =>
            rw [part]
            dsimp only
            rw [if_pos less, ih]
        | interpolation part inner =>
            have read : interpolation inside _ = some _ := inner.reader_eq_some
            rw [part]
            dsimp only
            rw [read]
            dsimp only
            rw [if_pos less, ih]

theorem BodyAdvance.past (reads : ∀ lexeme : Lexeme, (inside lexeme).Reads lexeme) {quote : Quote}
    {interpolated whether : Bool} {input middle : Input}
    (step : BodyAdvance inside quote interpolated input whether middle)
    (less : middle.rest.length < input.rest.length) : input.Past middle := by
  cases step with
  | text part => exact ⟨List.drop_suffix _ _, less, rfl⟩
  | interpolation part inner =>
      have passed := inner.past reads
      exact ⟨passed.suffix.trans (interpolation_of_bodyPart part), less, passed.indents⟩

/-- Reading a string body passes text, and leaves no format string open. -/
theorem ReadsBody.past (reads : ∀ lexeme : Lexeme, (inside lexeme).Reads lexeme) {quote : Quote}
    {read : List Char} {interpolated : Bool} {input : Input} {result : List Char × Bool × Input}
    (way : ReadsBody inside quote read interpolated input result) :
    input.Past result.2.2 ∧ result.2.2.inFormat = false := by
  induction way with
  | closed part => exact ⟨⟨List.drop_suffix _ _, close_of_bodyPart part, rfl⟩, rfl⟩
  | advanced step less rest ih => exact ⟨(step.past reads less).trans ih.1, ih.2⟩

/-! ### Strings before the cut -/

/-- A character of a longer text that stands before the cut is one of the cut text. -/
theorem Input.cons_of_extend {input : Input} {c : Char} {rest : List Char}
    (text : (input.extend tail).rest = c :: rest) (long : tail.length ≤ rest.length) :
    ∃ left, input.rest = c :: left ∧
      ({ input.extend tail with rest } : Input) = { input with rest := left }.extend tail := by
  cases before : input.rest with
  | nil =>
      have whole : tail = c :: rest := by simpa [Input.extend, before] using text
      rw [whole, List.length_cons] at long
      omega
  | cons d left =>
      rw [Input.extend, before, List.cons_append] at text
      obtain ⟨rfl, rfl⟩ := List.cons.inj text
      exact ⟨left, rfl, rfl⟩

section Extend

variable (cut : atBreak tail = true) (more : tail ≠ [])
  (reads : ∀ lexeme : Lexeme, (inside lexeme).Reads lexeme)
  (same : ∀ full cut : Lexeme, full.Extends tail cut → (inside full).Matches tail (inside' cut))
include cut more reads same

/-- What is interpolated in the longer text, up to a lexeme before the cut, is interpolated in the
cut one. -/
private theorem inside_extend {input : Input} {stop : Lexeme}
    (read : inside ((input.extend tail).next .operand) = ⟨some (), stop⟩)
    (known : stop.token ≠ .unknown) (long : tail.length ≤ stop.start.length) :
    ∃ stop', inside' (input.next .operand) = ⟨some (), stop'⟩ ∧ stop.Extends tail stop' := by
  have ends : (inside ((input.extend tail).next .operand)).Matches tail
      (inside' (input.next .operand)) := by
    rcases next_extend cut more .operand input with lost | first
    · exact .inl (lost.onward (reads _).onward)
    · exact same _ _ first
  rw [read] at ends
  rcases ends with (short | unknown) | ⟨value, stops⟩
  · exact absurd short (Nat.not_lt.mpr long)
  · exact absurd unknown known
  · exact ⟨_, congrArg (Outcome.mk · _) value.symm, stops⟩

/-- An interpolation of a longer text that ends before the cut is one of the cut text. -/
theorem Interpolates.extend {place : Place} {whole after : Input}
    (way : Interpolates inside place whole after) {input : Input}
    (longer : whole = input.extend tail) (long : tail.length ≤ after.rest.length) :
    ∃ after', after = after'.extend tail ∧ Interpolates inside' place input after' := by
  induction way generalizing input with
  | @closed _ stop read brace =>
      subst longer
      obtain ⟨stop', read', stops⟩ := inside_extend cut more reads same read (by simp [brace])
        (long.trans stop.length_after_le)
      exact ⟨stop'.after, stops.after, .closed read' (stops.token ▸ brace)⟩
  | @formatted _ _ stop read colon less rest ih =>
      subst longer
      have shorter := (rest.past reads).shorter
      have dropped : stop.afterColon.rest.length ≤ stop.start.length := by
        simp [Lexeme.afterColon]
      obtain ⟨stop', read', stops⟩ := inside_extend cut more reads same read
        (by rcases colon with colon | colon <;> simp [colon]) (by omega)
      rw [stops.token] at colon
      have nonempty : 0 < stop'.start.length :=
        Nat.zero_lt_of_lt (stop'.passes (by rcases colon with colon | colon <;> rw [colon] <;> rfl))
      have colons : stop.afterColon = stop'.afterColon.extend tail := by
        rw [Lexeme.afterColon, stops.after, stops.start, List.drop_append_of_le_length nonempty]
        rfl
      obtain ⟨after', ends, rest'⟩ := ih colons long
      rw [colons] at less
      exact ⟨after', ends, .formatted read' colon (by simpa [Input.extend] using less) rest'⟩
  | ended text =>
      subst longer
      obtain ⟨left, text', goesOn⟩ := Input.cons_of_extend text long
      exact ⟨{ input with rest := left }, goesOn, .ended text'⟩
  | nested text inner less outer first second =>
      subst longer
      have passed := (outer.past reads).shorter
      have opened := (inner.past reads).shorter
      dsimp only at opened
      obtain ⟨left, text', goesOn⟩ := Input.cons_of_extend text (by omega)
      obtain ⟨middle', rfl, inner'⟩ := first goesOn (by omega)
      obtain ⟨after', ends, outer'⟩ := second rfl long
      exact ⟨after', ends, .nested text' inner' (by simpa [Input.extend] using less) outer'⟩
  | passed text notClose notOpen rest ih =>
      subst longer
      have passed := (rest.past reads).shorter
      dsimp only at passed
      obtain ⟨left, text', goesOn⟩ := Input.cons_of_extend text (by omega)
      obtain ⟨after', ends, rest'⟩ := ih goesOn long
      exact ⟨after', ends, .passed text' notClose notOpen rest'⟩

/-- A step of a longer text that ends before the cut is one of the cut text. -/
theorem BodyAdvance.extend {quote : Quote} {interpolated whether : Bool} {input middle : Input}
    (step : BodyAdvance inside quote interpolated (input.extend tail) whether middle)
    (long : tail.length < middle.rest.length) :
    ∃ middle', middle = middle'.extend tail ∧
      BodyAdvance inside' quote interpolated input whether middle' := by
  have decides := bodyPart_append cut quote input.rest
  change (bodyPart quote (input.extend tail).rest).Decides tail _ _ at decides
  cases step with
  | @text length part =>
      rw [part] at decides
      have within : length < input.rest.length := by
        simp only [Input.extend, List.length_drop, List.length_append] at long
        omega
      refine ⟨{ input with rest := input.rest.drop length }, ?_, .text (decides within)⟩
      simp only [Input.extend, List.drop_append_of_le_length within.le]
  | interpolation part inner =>
      rw [part] at decides
      have passed := (inner.past reads).shorter
      dsimp only at passed
      obtain ⟨left, rfl, part'⟩ := decides (by omega)
      have longer : { input.extend tail with rest := left ++ tail } =
          ({ input with rest := left } : Input).extend tail := rfl
      obtain ⟨middle', goesOn, inner'⟩ := inner.extend cut more reads same longer long.le
      exact ⟨middle', goesOn, .interpolation part' inner'⟩

/-- A string of a longer text that ends before the cut is one of the cut text. -/
theorem ReadsBody.extend {quote : Quote} {read : List Char} {interpolated : Bool} {whole : Input}
    {result : List Char × Bool × Input}
    (way : ReadsBody inside quote read interpolated whole result) {input : Input}
    (longer : whole = input.extend tail) (long : tail.length ≤ result.2.2.rest.length) :
    ∃ after', result.2.2 = after'.extend tail ∧
      ReadsBody inside' quote read interpolated input (result.1, result.2.1, after') := by
  induction way generalizing input with
  | @closed _ _ _ length part =>
      subst longer
      have decides := bodyPart_append cut quote input.rest
      change (bodyPart quote (input.extend tail).rest).Decides tail _ _ at decides
      rw [part] at decides
      have within : length ≤ input.rest.length := by
        have := List.length_pos_iff.mpr more
        simp only [Input.extend, List.length_drop, List.length_append] at long
        omega
      refine ⟨{ input with rest := input.rest.drop length, inFormat := false }, ?_,
        .closed (decides within)⟩
      simp only [Input.extend, List.drop_append_of_le_length within]
  | advanced step less rest ih =>
      subst longer
      have passed := (rest.past reads).1.shorter
      obtain ⟨middle', rfl, step'⟩ := step.extend cut more reads same (long.trans_lt passed)
      obtain ⟨after', ends, rest'⟩ := ih rfl long
      have less' : middle'.rest.length < input.rest.length := by simpa [Input.extend] using less
      -- Both texts have the same text before the place where they go on.
      have skipped : (input.extend tail).rest.take ((input.extend tail).rest.length -
          (middle'.extend tail).rest.length) =
            input.rest.take (input.rest.length - middle'.rest.length) := by
        simp only [Input.extend, List.length_append, Nat.add_sub_add_right]
        exact List.take_append_of_le_length (Nat.sub_le ..)
      rw [skipped] at rest'
      exact ⟨after', ends, .advanced step' less' rest'⟩

end Extend

/-! ### Literals -/

theorem reads_literalBody (reads : ∀ lexeme : Lexeme, (inside lexeme).Reads lexeme)
    (expect : Expect) (lexeme : Lexeme) : (literalBody inside expect lexeme).Reads lexeme := by
  unfold literalBody
  split
  next quote isQuote =>
    split
    next body whether after found =>
      obtain ⟨past, closed⟩ := (stringBody_eq_some_iff.mp found).past reads
      refine ⟨Lexeme.onward_nextOf (by simp [isQuote]) past.suffix, fun _ _ => ?_⟩
      exact ⟨(indents_nextLexeme expect.indent_eq_false).trans past.indents, fun _ =>
        plain_nextLexeme closed⟩
    · exact ⟨⟨List.suffix_rfl, List.suffix_rfl, fun _ => rfl⟩, fun value read => by cases read⟩
  · exact .refl _ lexeme

theorem matches_literalBody (atCut : atBreak tail = true) (more : tail ≠ [])
    (reads : ∀ lexeme : Lexeme, (inside lexeme).Reads lexeme)
    (same : ∀ full cut : Lexeme, full.Extends tail cut →
      (inside full).Matches tail (inside' cut)) (expect : Expect) {full cut : Lexeme}
    (start : full.Extends tail cut) :
    (literalBody inside expect full).Matches tail (literalBody inside' expect cut) := by
  unfold literalBody
  rw [← start.token, start.after]
  split
  next quote isQuote =>
    split
    next body whether after found =>
      by_cases long : tail.length ≤ after.rest.length
      · obtain ⟨after', ends, way⟩ :=
          (stringBody_eq_some_iff.mp found).extend atCut more reads same rfl long
        obtain rfl : after = after'.extend tail := ends
        rw [stringBody_eq_some_iff.mpr way]
        exact (next_extend atCut more expect after').imp_right fun ends => ⟨rfl, ends⟩
      · exact .inl (lost_of_short (Nat.lt_of_not_le long))
    · exact .inl (.inr rfl)
  · exact .inr ⟨rfl, start⟩

end Interpolation

end Respell.Source
