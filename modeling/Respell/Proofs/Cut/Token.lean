import Mathlib.Data.List.Find
import Mathlib.Tactic
import Respell.Source.Lexeme

/-!
Tokens of a text that is cut at a break. What follows the cut starts with a character that belongs to
no token, so the token that the text starts with, its numeral and its quote are the same with and
without what follows.
-/

set_option autoImplicit false

namespace Respell.Source

open Respell.Text

variable {tail : List Char}

/-- A class of characters that no break starts with. -/
def Inner (p : Char → Bool) : Prop := ∀ c ∈ breakChars, p c = false

-- Decided along the list: a search through all characters would not end in time.
instance (p : Char → Bool) : Decidable (Inner p) :=
  List.decidableBAll (fun c => p c = false) breakChars

theorem mem_breakChars {c : Char} {rest : List Char} (cut : atBreak (c :: rest) = true) :
    c ∈ breakChars := by
  simpa [atBreak] using cut

theorem Inner.of_atBreak {p : Char → Bool} (inner : Inner p) {c : Char} {rest : List Char}
    (cut : atBreak (c :: rest) = true) : p c = false := inner c (mem_breakChars cut)

theorem not_eq_of_atBreak {c d : Char} {rest : List Char} (cut : atBreak (c :: rest) = true)
    (other : d ∉ breakChars) : c ≠ d := by
  rintro rfl
  exact other (mem_breakChars cut)

theorem takeWhile_append_cut {p : Char → Bool} (inner : Inner p) (cut : atBreak tail = true)
    (text : List Char) : (text ++ tail).takeWhile p = text.takeWhile p := by
  induction text with
  | nil =>
      cases tail with
      | nil => rfl
      | cons c rest => simp [inner.of_atBreak cut]
  | cons c rest ih =>
      rw [List.cons_append, List.takeWhile_cons, List.takeWhile_cons, ih]

/-! ### Numerals -/

theorem digitRunFrom_append (cut : atBreak tail = true) (after : Bool) (text : List Char) :
    digitRunFrom after (text ++ tail) = digitRunFrom after text := by
  induction text generalizing after with
  | nil =>
      cases tail with
      | nil => rfl
      | cons c rest =>
          have digit : c.isDigit = false := Inner.of_atBreak (by decide) cut
          have underscore : c ≠ '_' := not_eq_of_atBreak cut (by decide)
          simp [digitRunFrom, digit, underscore]
  | cons c rest ih => simp only [List.cons_append, digitRunFrom, ih]

theorem digitRunFrom_le (after : Bool) (text : List Char) :
    digitRunFrom after text ≤ text.length := by
  induction text generalizing after with
  | nil => simp [digitRunFrom]
  | cons c rest ih =>
      have inside := ih true
      have underscore := ih false
      simp only [digitRunFrom, List.length_cons]
      split <;> [skip; split] <;> omega

theorem digitRun_append (cut : atBreak tail = true) (text : List Char) :
    digitRun (text ++ tail) = digitRun text := digitRunFrom_append cut false text

theorem digitRun_le (text : List Char) : digitRun text ≤ text.length := digitRunFrom_le false text

theorem radixRun_append {isDigit : Char → Bool} (inner : Inner isDigit)
    (underscore : isDigit '_' = false) (cut : atBreak tail = true) (text : List Char) :
    radixRun isDigit (text ++ tail) = radixRun isDigit text := by
  fun_induction radixRun isDigit text with
  | case1 =>
      cases tail with
      | nil => rfl
      | cons c rest =>
          have digit := inner.of_atBreak cut
          have other : c ≠ '_' := not_eq_of_atBreak cut (by decide)
          rw [List.nil_append, radixRun.eq_def]
          split <;> simp_all
  | case2 c rest digit ih => simp [radixRun, digit, ih]
  | case3 c rest digit => simp [radixRun, digit]
  | case4 c rest other digit ih =>
      rw [List.cons_append, radixRun.eq_def]
      split
      · simp_all
      next c' rest' same =>
        obtain ⟨rfl, -⟩ := List.cons.inj same
        simp [underscore] at digit
      next c' rest' _ same =>
        obtain ⟨rfl, rfl⟩ := List.cons.inj same
        simp [digit, ih]
  | case5 c rest other digit =>
      rw [List.cons_append, radixRun.eq_def]
      split
      · rfl
      next c' rest' same =>
        obtain ⟨rfl, more⟩ := List.cons.inj same
        cases rest with
        | nil =>
            rw [List.nil_append] at more
            subst more
            simp [inner.of_atBreak cut]
        | cons d rest => exact absurd rfl (other d rest rfl)
      next c' rest' _ same =>
        obtain ⟨rfl, rfl⟩ := List.cons.inj same
        simp [digit]

theorem radixRun_le (isDigit : Char → Bool) (text : List Char) :
    radixRun isDigit text ≤ text.length := by
  fun_induction radixRun isDigit text <;> simp only [List.length_cons, List.length_nil] <;> omega

theorem suffixLength_append {letters : List Char} (inner : Inner letters.contains)
    (cut : atBreak tail = true) (text : List Char) :
    suffixLength letters (text ++ tail) = suffixLength letters text := by
  cases text with
  | nil =>
      cases tail with
      | nil => rfl
      | cons c rest => simp only [List.nil_append, suffixLength, inner.of_atBreak cut]; rfl
  | cons c rest => rfl

theorem suffixLength_le (letters text : List Char) : suffixLength letters text ≤ text.length := by
  unfold suffixLength
  split
  · split <;> simp
  · simp

theorem exponentLength_append (cut : atBreak tail = true) (text : List Char) :
    exponentLength (text ++ tail) = exponentLength text := by
  cases text with
  | nil =>
      cases tail with
      | nil => rfl
      | cons c rest =>
          have lower : c ≠ 'e' := not_eq_of_atBreak cut (by decide)
          have upper : c ≠ 'E' := not_eq_of_atBreak cut (by decide)
          simp [exponentLength, lower, upper]
  | cons c rest =>
      have sign : suffixLength ['+', '-'] (rest ++ tail) = suffixLength ['+', '-'] rest :=
        suffixLength_append (by decide) cut rest
      have digits : digitRun ((rest ++ tail).drop (suffixLength ['+', '-'] rest)) =
          digitRun (rest.drop (suffixLength ['+', '-'] rest)) := by
        rw [List.drop_append_of_le_length (suffixLength_le _ rest), digitRun_append cut]
      simp only [List.cons_append, exponentLength, sign, digits]

theorem exponentLength_le (text : List Char) : exponentLength text ≤ text.length := by
  cases text with
  | nil => simp [exponentLength]
  | cons c rest =>
      have sign := suffixLength_le ['+', '-'] rest
      have digits := digitRun_le (rest.drop (suffixLength ['+', '-'] rest))
      rw [List.length_drop] at digits
      rw [exponentLength, List.length_cons]
      generalize digitRun (rest.drop (suffixLength ['+', '-'] rest)) = run at *
      split <;> omega

theorem fractionLength_append (cut : atBreak tail = true) (whole : Nat) (text : List Char) :
    fractionLength whole (text ++ tail) = fractionLength whole text := by
  cases text with
  | nil =>
      cases tail with
      | nil => rfl
      | cons c rest =>
          have point : c ≠ '.' := not_eq_of_atBreak cut (by decide)
          have exponent : exponentLength (c :: rest) = 0 := exponentLength_append cut []
          simp [fractionLength, point, exponent]
  | cons c rest =>
      have digits : digitRun (rest ++ tail) = digitRun rest := digitRun_append cut rest
      have few := digitRun_le rest
      have exponent : exponentLength ((rest ++ tail).drop (digitRun rest)) =
          exponentLength (rest.drop (digitRun rest)) := by
        rw [List.drop_append_of_le_length few, exponentLength_append cut]
      have lone : exponentLength (c :: (rest ++ tail)) = exponentLength (c :: rest) :=
        exponentLength_append cut (c :: rest)
      have after : (rest ++ tail).drop
            (digitRun rest + exponentLength (rest.drop (digitRun rest))) =
          rest.drop (digitRun rest + exponentLength (rest.drop (digitRun rest))) ++ tail := by
        have short := exponentLength_le (rest.drop (digitRun rest))
        rw [List.length_drop] at short
        exact List.drop_append_of_le_length (by omega)
      have afterLone : (c :: (rest ++ tail)).drop (exponentLength (c :: rest)) =
          (c :: rest).drop (exponentLength (c :: rest)) ++ tail :=
        List.drop_append_of_le_length (exponentLength_le (c :: rest))
      have imaginary (text : List Char) : suffixLength ['j', 'J'] (text ++ tail) =
          suffixLength ['j', 'J'] text := suffixLength_append (by decide) cut text
      simp only [List.cons_append, fractionLength, digits, exponent, lone, after, afterLone,
        imaginary]

theorem radixDigit?_of_atBreak {c : Char} {rest : List Char} (cut : atBreak (c :: rest) = true) :
    radixDigit? c = none := by
  have none : Inner fun c => (radixDigit? c).isSome := by decide
  exact Option.isNone_iff_eq_none.mp (Option.isSome_eq_false_iff.mp (none.of_atBreak cut))

theorem inner_of_radixDigit? {letter : Char} {isDigit : Char → Bool}
    (found : radixDigit? letter = some isDigit) : Inner isDigit ∧ isDigit '_' = false := by
  unfold radixDigit? at found
  repeat' split at found
  all_goals simp only [Option.some.injEq, reduceCtorEq] at found
  all_goals subst found; decide

theorem basedLength_append (cut : atBreak tail = true) (text : List Char) :
    basedLength (text ++ tail) = basedLength text := by
  match text with
  | [] =>
      match tail with
      | [] | [_] => rfl
      | c :: d :: rest =>
          have notZero : c ≠ '0' := not_eq_of_atBreak cut (by decide)
          simp only [List.nil_append, basedLength]
          split <;> simp [notZero]
  | [c] =>
      match tail with
      | [] => rfl
      | d :: rest => simp [basedLength, radixDigit?_of_atBreak cut]
  | c :: d :: rest =>
      simp only [List.cons_append, basedLength]
      split
      next isDigit found =>
        obtain ⟨inner, underscore⟩ := inner_of_radixDigit? found
        have run := radixRun_append inner underscore cut rest
        have after : suffixLength ['l', 'L'] ((rest ++ tail).drop (radixRun isDigit rest)) =
            suffixLength ['l', 'L'] (rest.drop (radixRun isDigit rest)) := by
          rw [List.drop_append_of_le_length (radixRun_le isDigit rest)]
          exact suffixLength_append (by decide) cut _
        rw [run, after]
      · rfl

theorem fractionLength_le (whole : Nat) (text : List Char) :
    fractionLength whole text ≤ text.length := by
  cases text with
  | nil => simp [fractionLength]
  | cons c rest =>
      have digits := digitRun_le rest
      have exponent := exponentLength_le (rest.drop (digitRun rest))
      have mark := suffixLength_le ['j', 'J']
        (rest.drop (digitRun rest + exponentLength (rest.drop (digitRun rest))))
      have lone := exponentLength_le (c :: rest)
      have loneMark := suffixLength_le ['j', 'J'] ((c :: rest).drop (exponentLength (c :: rest)))
      simp only [List.length_drop, List.length_cons] at exponent mark lone loneMark
      simp only [fractionLength, List.length_cons]
      repeat' split
      all_goals omega

theorem basedLength_le (text : List Char) : basedLength text ≤ text.length := by
  unfold basedLength
  split
  next zero letter rest =>
    split
    next isDigit _ =>
      have run := radixRun_le isDigit rest
      have mark := suffixLength_le ['l', 'L'] (rest.drop (radixRun isDigit rest))
      simp only [List.length_drop] at mark
      simp only [List.length_cons]
      split <;> omega
    · simp
  · simp

theorem numeral?_le {text : List Char} {kind : NumeralKind} {n : Nat}
    (found : numeral? text = some (kind, n)) : n ≤ text.length := by
  have based := basedLength_le text
  have whole := digitRun_le text
  have fraction := fractionLength_le (digitRun text) (text.drop (digitRun text))
  have mark := suffixLength_le ['l', 'L', 'j', 'J'] (text.drop (digitRun text))
  rw [List.length_drop] at fraction mark
  unfold numeral? at found
  dsimp only at found
  repeat' split at found
  all_goals simp only [Option.some.injEq, Prod.mk.injEq, reduceCtorEq] at found
  all_goals omega

/-- The numeral that a text starts with is the same before a cut. -/
theorem numeral?_append (cut : atBreak tail = true) (text : List Char) :
    numeral? (text ++ tail) = numeral? text := by
  have whole := digitRun_append cut text
  have rest : (text ++ tail).drop (digitRun text) = text.drop (digitRun text) ++ tail :=
    List.drop_append_of_le_length (digitRun_le text)
  have mark : suffixLength ['l', 'L', 'j', 'J'] (text.drop (digitRun text) ++ tail) =
      suffixLength ['l', 'L', 'j', 'J'] (text.drop (digitRun text)) :=
    suffixLength_append (by decide) cut _
  simp only [numeral?, whole, rest, mark, basedLength_append cut, fractionLength_append cut]

/-! ### Tokens -/

theorem symbol_inner : ∀ s ∈ symbols, ∀ c ∈ s.toList, c ∉ breakChars := by
  have all : (symbols.all fun s => s.toList.all fun c => !breakChars.contains c) = true := by decide
  intro s member c among
  have apart := List.all_eq_true.mp (List.all_eq_true.mp all s member) c among
  simpa using apart

theorem isPrefixOf_append_cut (cut : atBreak tail = true) {symbol : List Char}
    (inner : ∀ c ∈ symbol, c ∉ breakChars) (text : List Char) :
    symbol.isPrefixOf (text ++ tail) = symbol.isPrefixOf text := by
  induction text generalizing symbol with
  | nil =>
      cases symbol with
      | nil => simp
      | cons c more =>
          cases tail with
          | nil => rfl
          | cons d rest =>
              have other : c ≠ d := fun same =>
                inner c (List.mem_cons_self ..) (same ▸ mem_breakChars cut)
              simp [List.isPrefixOf_cons_cons, other]
  | cons d rest ih =>
      cases symbol with
      | nil => simp
      | cons c more =>
          simp only [List.cons_append, List.isPrefixOf_cons_cons]
          rw [ih fun c member => inner c (List.mem_cons_of_mem _ member)]

theorem find?_symbols_append (cut : atBreak tail = true) (text : List Char) :
    (symbols.find? fun s => s.toList.isPrefixOf (text ++ tail)) =
      symbols.find? fun s => s.toList.isPrefixOf text :=
  List.find?_congr fun s member => isPrefixOf_append_cut cut (symbol_inner s member) text

/-- The token that a text starts with is the same before a cut. -/
theorem token_append (cut : atBreak tail = true) {text : List Char} (nonempty : text ≠ []) :
    token (text ++ tail) = token text := by
  obtain ⟨c, rest, rfl⟩ := List.exists_cons_of_ne_nil nonempty
  have word : (rest ++ tail).takeWhile continuesIdentifier =
      rest.takeWhile continuesIdentifier := takeWhile_append_cut (by decide +kernel) cut rest
  have lower : (rest ++ tail).head?.any Char.isLower = rest.head?.any Char.isLower := by
    cases rest with
    | cons d more => rfl
    | nil =>
        cases tail with
        | nil => rfl
        | cons d more =>
            have notLower : d.isLower = false := Inner.of_atBreak (by decide) cut
            simpa using notLower
  have numeral := numeral?_append cut (c :: rest)
  have symbol := find?_symbols_append cut (c :: rest)
  simp only [List.cons_append] at numeral symbol ⊢
  simp only [token, word, numeral, symbol, lower]
  split
  · rfl
  · split
    next kind n found =>
      rw [← List.cons_append, List.take_append_of_le_length (numeral?_le found)]
    · rfl

theorem token_ne_stop {text : List Char} (nonempty : text ≠ []) : (token text).1 ≠ .stop := by
  obtain ⟨c, rest, rfl⟩ := List.exists_cons_of_ne_nil nonempty
  unfold token
  repeat' split
  all_goals simp_all

theorem token_ne_indent (text : List Char) : (token text).1 ≠ .indent := by
  unfold token
  repeat' split
  all_goals simp

theorem token_le (text : List Char) : (token text).2 ≤ text.length := by
  unfold token
  split
  · exact Nat.zero_le _
  next c rest =>
    have word := (List.takeWhile_prefix continuesIdentifier (l := rest)).length_le
    split
    · simpa using word
    · split
      next found => exact numeral?_le found
      next =>
        split
        next s found =>
          have starts := List.find?_some found
          exact (List.isPrefixOf_iff_prefix.mp starts).length_le
        next =>
          split
          next isConversion => cases rest <;> simp_all
          · exact Nat.zero_le _

/-- No token starts at a break. -/
theorem token_of_atBreak {c : Char} {rest : List Char} (cut : atBreak (c :: rest) = true) :
    token (c :: rest) = (.unknown, 0) := by
  have word : startsIdentifier c = false := Inner.of_atBreak (by decide +kernel) cut
  have numeral : numeral? (c :: rest) = none := numeral?_append cut []
  have symbol : (symbols.find? fun s => s.toList.isPrefixOf (c :: rest)) = none :=
    (find?_symbols_append cut []).trans (by decide)
  have conversion : c ≠ '!' := not_eq_of_atBreak cut (by decide)
  simp [token, word, numeral, symbol, conversion]

theorem mark_inner {c : Char} (mark : Quote.isMark c = true) : c ∉ breakChars := by
  have marks : Inner Quote.isMark := by decide
  intro broken
  simp [marks c broken] at mark

/-- The quote that a text opens is the same before a cut. -/
theorem open?_append (cut : atBreak tail = true) (text : List Char) :
    Quote.open? (text ++ tail) = Quote.open? text := by
  have flags : (text ++ tail).takeWhile Quote.isFlag = text.takeWhile Quote.isFlag :=
    takeWhile_append_cut (by decide) cut text
  have rest : (text ++ tail).drop (text.takeWhile Quote.isFlag).length =
      text.drop (text.takeWhile Quote.isFlag).length ++ tail :=
    List.drop_append_of_le_length (List.takeWhile_prefix _).length_le
  simp only [Quote.open?, flags, rest]
  cases marked : text.drop (text.takeWhile Quote.isFlag).length with
  | nil =>
      cases tail with
      | nil => rfl
      | cons c more =>
          have noMark : Quote.isMark c = false := Inner.of_atBreak (by decide) cut
          simp [noMark]
  | cons c more =>
      cases mark : Quote.isMark c with
      | false => simp [mark]
      | true =>
          have inner : ∀ d ∈ [c, c], d ∉ breakChars := by
            intro d member
            have same : d = c := by simpa using member
            exact same ▸ mark_inner mark
          simp only [List.cons_append, isPrefixOf_append_cut cut inner more]

theorem open?_le {text : List Char} {quote : Quote} {length : Nat}
    (opened : Quote.open? text = some (quote, length)) : length ≤ text.length := by
  have flags := (List.takeWhile_prefix Quote.isFlag (l := text)).length_le
  have left := List.length_drop (i := (text.takeWhile Quote.isFlag).length) (l := text)
  unfold Quote.open? at opened
  dsimp only at opened
  split at opened
  next mark rest same =>
    rw [same, List.length_cons] at left
    split at opened
    next =>
      simp only [Option.some.injEq, Prod.mk.injEq] at opened
      obtain ⟨-, rfl⟩ := opened
      split
      next triple =>
        rw [Bool.and_eq_true, List.isPrefixOf_iff_prefix] at triple
        have two : 2 ≤ rest.length := triple.2.length_le
        omega
      · omega
    · cases opened
  · cases opened

end Respell.Source
