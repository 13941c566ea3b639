import Respell.Proofs.Digits
import Respell.Proofs.Encoding
import Respell.Proofs.LoneAtom
import Respell.Respeller

/-!
Integers in a source text. A literal is a zero, a letter and digits of the base that the letter
stands for, or decimal digits; underscores may stand between groups of digits, and a letter may come
last. It is read as the number that its digits denote, and only if that number fits 64 bits and no
letter comes last. What is rendered for an integer that is not negative is such a literal.
-/

set_option autoImplicit false

namespace Respell.Source

open Respell.Text
open Respell.Syntax (Constant Expr)

/-- Letters after a zero, each with its base. -/
def radixLetters : List (Char × Nat) :=
  [('x', 16), ('X', 16), ('o', 8), ('O', 8), ('b', 2), ('B', 2)]

/-- Some digits, with or without an underscore at their side. -/
structure DigitGroup where
  digits : List Char
  nonempty : digits ≠ []
  underscore : Bool

namespace DigitGroup

def mark (group : DigitGroup) : List Char := if group.underscore then ['_'] else []

/-- Digits of groups without the underscores. -/
def join (groups : List DigitGroup) : List Char := groups.flatMap digits

def markedBefore (groups : List DigitGroup) : List Char :=
  groups.flatMap fun group => group.mark ++ group.digits

def markedAfter (groups : List DigitGroup) : List Char :=
  groups.flatMap fun group => group.digits ++ group.mark

end DigitGroup

/-- The texts of integers, each with its base, its digits and the letter that comes last. -/
inductive IntegerText : List Char → Nat → List Char → Option Char → Prop
  | based {letter : Char} {base : Nat} {groups : List DigitGroup} {suffix : Option Char} :
      (letter, base) ∈ radixLetters → groups ≠ [] → suffix ∈ [none, some 'l', some 'L'] →
      IntegerText ('0' :: letter :: (DigitGroup.markedBefore groups ++ suffix.toList)) base
        (DigitGroup.join groups) suffix
  | decimal {groups : List DigitGroup} {suffix : Option Char} :
      groups ≠ [] → suffix ∈ [none, some 'l', some 'L', some 'j', some 'J'] →
      IntegerText (DigitGroup.markedAfter groups ++ suffix.toList) 10 (DigitGroup.join groups)
        suffix

/-! ### Digits of a base -/

/-- What the reader knows of a letter and its base. -/
structure Radix (letter : Char) (base : Nat) (isDigit : Char → Bool) : Prop where
  known : radixDigit? letter = some isDigit
  few : base ≤ 16
  digits : ∀ digit < base, isDigit digit.digitChar = true ∧ isDigit digit.digitChar.toUpper = true
  underscore : isDigit '_' = false
  small : isDigit 'l' = false
  large : isDigit 'L' = false
  value : ∀ {text digits : List Char}, text.filter (· != '_') = '0' :: letter :: digits →
    integerValue? text = number? base isDigit digits

theorem exists_radix {letter : Char} {base : Nat} (listed : (letter, base) ∈ radixLetters) :
    ∃ isDigit, Radix letter base isDigit := by
  have cases : (letter = 'x' ∨ letter = 'X') ∧ base = 16 ∨
      (letter = 'o' ∨ letter = 'O') ∧ base = 8 ∨ (letter = 'b' ∨ letter = 'B') ∧ base = 2 := by
    simp only [radixLetters, List.mem_cons, Prod.mk.injEq, List.not_mem_nil, or_false] at listed
    tauto
  rcases cases with ⟨either, rfl⟩ | ⟨either, rfl⟩ | ⟨either, rfl⟩
  · refine ⟨isHexDigit, ?_⟩
    rcases either with rfl | rfl <;>
      exact ⟨rfl, by decide, by decide, rfl, rfl, rfl, fun same => by rw [integerValue?, same]; rfl⟩
  · refine ⟨isOctalDigit, ?_⟩
    rcases either with rfl | rfl <;>
      exact ⟨rfl, by decide, by decide, rfl, rfl, rfl, fun same => by rw [integerValue?, same]; rfl⟩
  · refine ⟨isBinaryDigit, ?_⟩
    rcases either with rfl | rfl <;>
      exact ⟨rfl, by decide, by decide, rfl, rfl, rfl, fun same => by rw [integerValue?, same]; rfl⟩

theorem join_ne_nil {groups : List DigitGroup} (nonempty : groups ≠ []) :
    DigitGroup.join groups ≠ [] := by
  obtain ⟨group, rest, rfl⟩ := List.exists_cons_of_ne_nil nonempty
  simp [DigitGroup.join, group.nonempty]

theorem filter_mark (group : DigitGroup) : group.mark.filter (· != '_') = [] := by
  unfold DigitGroup.mark
  split <;> rfl

theorem filter_digits {digits : List Char} (plain : '_' ∉ digits) :
    digits.filter (· != '_') = digits := by
  rw [List.filter_eq_self]
  intro c member
  have other : c ≠ '_' := fun same => plain (same ▸ member)
  simpa using other

/-- Underscores are ignored. -/
theorem filter_markedBefore {groups : List DigitGroup} (plain : '_' ∉ DigitGroup.join groups) :
    (DigitGroup.markedBefore groups).filter (· != '_') = DigitGroup.join groups := by
  induction groups with
  | nil => rfl
  | cons group rest ih =>
      simp only [DigitGroup.join, List.flatMap_cons, List.mem_append, not_or] at plain
      simp only [DigitGroup.markedBefore, DigitGroup.join, List.flatMap_cons, List.filter_append,
        filter_mark, filter_digits plain.1, List.nil_append, List.append_cancel_left_eq]
      exact ih plain.2

theorem filter_markedAfter {groups : List DigitGroup} (plain : '_' ∉ DigitGroup.join groups) :
    (DigitGroup.markedAfter groups).filter (· != '_') = DigitGroup.join groups := by
  induction groups with
  | nil => rfl
  | cons group rest ih =>
      simp only [DigitGroup.join, List.flatMap_cons, List.mem_append, not_or] at plain
      simp only [DigitGroup.markedAfter, DigitGroup.join, List.flatMap_cons, List.filter_append,
        filter_mark, filter_digits plain.1, List.append_nil, List.append_cancel_left_eq]
      exact ih plain.2

/-! ### Values -/

/-- Digits are read as the number that they denote, and not at all if a letter follows that is no
digit. -/
theorem number?_suffix {base n : Nat} {isDigit : Char → Bool} {digits : List Char}
    (few : base ≤ 16) (numeral : Numeral base digits n) (nonempty : digits ≠ [])
    (all : ∀ c ∈ digits, isDigit c = true) {suffix : Option Char}
    (other : ∀ c ∈ suffix, isDigit c = false) :
    number? base isDigit (digits ++ suffix.toList) = if suffix = none then some n else none := by
  cases suffix with
  | none =>
      rw [Option.toList_none, List.append_nil, number?_eq_some nonempty all,
        numeral.ofDigits_eq few]
      rfl
  | some c =>
      have stray : isDigit c = false := other c rfl
      simp [number?, stray]

/-- Without a letter for a base the digits are decimal. -/
theorem integerValue?_decimal {text rest : List Char} (filtered : text.filter (· != '_') = rest)
    (decimal : ∀ c ∈ rest, c.isDigit = true ∨ c ∈ ['l', 'L', 'j', 'J']) :
    integerValue? text = number? 10 Char.isDigit rest := by
  have no_letter {c : Char} (member : c ∈ rest) : c ∉ ['x', 'X', 'o', 'O', 'b', 'B'] := by
    intro letter
    have allowed := decimal c member
    fin_cases letter <;> revert allowed <;> decide
  rw [integerValue?, filtered]
  split
  case h_7 => rfl
  all_goals
    rename_i digits
    exact absurd (by decide) (no_letter (.tail _ (.head digits)))

theorem filter_suffix {digits rest : List Char} {suffix : Option Char}
    (filtered : digits.filter (· != '_') = rest) (other : '_' ∉ suffix) :
    (digits ++ suffix.toList).filter (· != '_') = rest ++ suffix.toList := by
  rw [List.filter_append, filtered, filter_digits (by simpa using other)]

/-- A literal has the value of its digits, or none if a letter comes last. -/
theorem integerValue?_text {text digits : List Char} {base n : Nat} {suffix : Option Char}
    (written : IntegerText text base digits suffix) (numeral : Numeral base digits n) :
    integerValue? text = if suffix = none then some n else none := by
  cases written with
  | @based letter base groups suffix listed nonempty last =>
      obtain ⟨isDigit, radix⟩ := exists_radix listed
      have all : ∀ c ∈ DigitGroup.join groups, isDigit c = true := numeral.forall_mem radix.digits
      have plain : '_' ∉ DigitGroup.join groups := by
        intro member
        have digit := all _ member
        rw [radix.underscore] at digit
        cases digit
      have other : ∀ c ∈ suffix, isDigit c = false := by
        fin_cases last
        · simp
        · simpa using radix.small
        · simpa using radix.large
      have filtered : ('0' :: letter :: DigitGroup.markedBefore groups).filter (· != '_') =
          '0' :: letter :: DigitGroup.join groups := by
        have head : letter ≠ '_' := by
          rintro rfl
          cases radix.known
        simp [head, filter_markedBefore plain]
      have bare : '_' ∉ suffix := by
        fin_cases last <;> simp
      calc
        integerValue? _ = number? base isDigit (DigitGroup.join groups ++ suffix.toList) :=
          radix.value (filter_suffix filtered bare)
        _ = _ := number?_suffix radix.few numeral (join_ne_nil nonempty) all other
  | @decimal groups suffix nonempty last =>
      have all : ∀ c ∈ DigitGroup.join groups, c.isDigit = true :=
        numeral.forall_mem (by decide)
      have plain : '_' ∉ DigitGroup.join groups := fun member => by
        cases all _ member
      have letters : ∀ c ∈ suffix, c ∈ ['l', 'L', 'j', 'J'] := by
        fin_cases last <;> simp
      have bare : '_' ∉ suffix := fun member => absurd (letters _ member) (by decide)
      rw [integerValue?_decimal (filter_suffix (filter_markedAfter plain) bare)]
      · refine number?_suffix (by decide) numeral (join_ne_nil nonempty) all ?_
        intro c member
        have letter := letters c member
        fin_cases letter <;> rfl
      · intro c member
        rcases List.mem_append.mp member with digit | letter
        · exact .inl (all c digit)
        · exact .inr (letters c (by simpa using letter))

/-- A literal is read exactly or not at all. -/
theorem readInteger_text {text digits : List Char} {base n : Nat} {suffix : Option Char}
    (written : IntegerText text base digits suffix) (numeral : Numeral base digits n) :
    readInteger text =
      if suffix = none ∧ n < 2 ^ 63 then some (Int64.ofNat n) else none := by
  rw [readInteger, integerValue?_text written numeral]
  have size : Int64.size / 2 = 2 ^ 63 := rfl
  by_cases bare : suffix = none
  · simp only [bare, if_true, true_and, size]
  · simp [bare]

theorem readExpr_integer {text digits : List Char} {base n : Nat} {suffix : Option Char}
    (written : IntegerText text base digits suffix) (numeral : Numeral base digits n) :
    readExpr (.integer text) = .ok (if suffix = none ∧ n < 2 ^ 63 then
      .constant (.int (Int64.ofNat n)) else .other "integer") := by
  rw [readExpr, readInteger_text written numeral]
  by_cases fits : suffix = none ∧ n < 2 ^ 63
  · rw [if_pos fits, if_pos fits]
  · rw [if_neg fits, if_neg fits]

/-! ### Tokens -/

theorem radixRun_digits {isDigit : Char → Bool} (underscore : isDigit '_' = false)
    {digits : List Char} (all : ∀ c ∈ digits, isDigit c = true) (rest : List Char) :
    radixRun isDigit (digits ++ rest) = digits.length + radixRun isDigit rest := by
  induction digits with
  | nil => simp
  | cons c digits ih =>
      obtain ⟨digit, more⟩ := List.forall_mem_cons.mp all
      have other : c ≠ '_' := by
        rintro rfl
        rw [underscore] at digit
        cases digit
      have step : radixRun isDigit (c :: (digits ++ rest)) =
          1 + radixRun isDigit (digits ++ rest) := by
        rw [radixRun, if_pos digit]
        simp [other]
      rw [List.cons_append, step, ih more, List.length_cons]
      omega

/-- A run of digits passes an underscore that stands before one. -/
theorem radixRun_group {isDigit : Char → Bool} (underscore : isDigit '_' = false)
    {group : DigitGroup} (all : ∀ c ∈ group.digits, isDigit c = true) (rest : List Char) :
    radixRun isDigit (group.mark ++ group.digits ++ rest) =
      (group.mark ++ group.digits).length + radixRun isDigit rest := by
  have plain := radixRun_digits underscore all rest
  obtain ⟨digits, nonempty, marked⟩ := group
  obtain ⟨c, more, rfl⟩ := List.exists_cons_of_ne_nil nonempty
  cases marked with
  | false => exact plain
  | true =>
      have digit : isDigit c = true := all c (.head _)
      have step : radixRun isDigit ('_' :: c :: (more ++ rest)) =
          2 + radixRun isDigit (more ++ rest) := by
        rw [radixRun, if_pos digit]
      have after := radixRun_digits underscore (fun d member => all d (.tail _ member)) rest
      change radixRun isDigit ('_' :: c :: (more ++ rest)) = _
      rw [step, after]
      simp only [DigitGroup.mark, if_true, List.length_append, List.length_cons, List.length_nil]
      omega

theorem radixRun_groups {isDigit : Char → Bool} (underscore : isDigit '_' = false)
    {groups : List DigitGroup} (all : ∀ c ∈ DigitGroup.join groups, isDigit c = true)
    (rest : List Char) :
    radixRun isDigit (DigitGroup.markedBefore groups ++ rest) =
      (DigitGroup.markedBefore groups).length + radixRun isDigit rest := by
  induction groups with
  | nil => simp [DigitGroup.markedBefore]
  | cons group groups ih =>
      have here : ∀ c ∈ group.digits, isDigit c = true := fun c member =>
        all c (List.mem_append_left _ member)
      have there : ∀ c ∈ DigitGroup.join groups, isDigit c = true := fun c member =>
        all c (List.mem_append_right _ member)
      have unfolded : DigitGroup.markedBefore (group :: groups) =
          group.mark ++ group.digits ++ DigitGroup.markedBefore groups := rfl
      rw [unfolded, List.append_assoc, radixRun_group underscore here, ih there]
      simp only [List.length_append]
      omega

theorem digitRunFrom_digits {digits : List Char} (all : ∀ c ∈ digits, c.isDigit = true)
    (nonempty : digits ≠ []) (after : Bool) (rest : List Char) :
    digitRunFrom after (digits ++ rest) = digits.length + digitRunFrom true rest := by
  obtain ⟨c, more, rfl⟩ := List.exists_cons_of_ne_nil nonempty
  clear nonempty
  induction more generalizing c after with
  | nil =>
      have digit : c.isDigit = true := all c (.head _)
      rw [List.singleton_append, digitRunFrom, if_pos digit]
      rfl
  | cons d more ih =>
      obtain ⟨digit, others⟩ := List.forall_mem_cons.mp all
      have further := ih true d others
      rw [List.cons_append, digitRunFrom, if_pos digit, further]
      simp only [List.length_cons]
      omega

/-- A run of decimal digits passes an underscore that stands after one. -/
theorem digitRunFrom_groups {groups : List DigitGroup}
    (all : ∀ c ∈ DigitGroup.join groups, c.isDigit = true) {rest : List Char}
    (stops : ∀ after, digitRunFrom after rest = 0) (after : Bool) :
    digitRunFrom after (DigitGroup.markedAfter groups ++ rest) =
      (DigitGroup.markedAfter groups).length := by
  induction groups generalizing after with
  | nil => exact stops after
  | cons group groups ih =>
      have here : ∀ c ∈ group.digits, c.isDigit = true := fun c member =>
        all c (List.mem_append_left _ member)
      have there := ih fun c member => all c (List.mem_append_right _ member)
      have unfolded : DigitGroup.markedAfter (group :: groups) ++ rest =
          group.digits ++ (group.mark ++ (DigitGroup.markedAfter groups ++ rest)) := by
        simp [DigitGroup.markedAfter]
      have marked : digitRunFrom true (group.mark ++ (DigitGroup.markedAfter groups ++ rest)) =
          group.mark.length + (DigitGroup.markedAfter groups).length := by
        unfold DigitGroup.mark
        split
        · change 1 + digitRunFrom false (DigitGroup.markedAfter groups ++ rest) = _
          rw [there]
          rfl
        · rw [List.nil_append, there, List.length_nil, Nat.zero_add]
      rw [unfolded, digitRunFrom_digits here group.nonempty, marked]
      simp only [DigitGroup.markedAfter, List.flatMap_cons, List.length_append]
      omega

theorem mem_markedAfter {groups : List DigitGroup} {c : Char}
    (member : c ∈ DigitGroup.markedAfter groups) : c ∈ DigitGroup.join groups ∨ c = '_' := by
  obtain ⟨group, listed, inside⟩ := List.mem_flatMap.mp member
  rcases List.mem_append.mp inside with digit | mark
  · exact .inl (List.mem_flatMap.mpr ⟨group, listed, digit⟩)
  · unfold DigitGroup.mark at mark
    split at mark
    · exact .inr (List.mem_singleton.mp mark)
    · cases mark

theorem basedLength_of_decimal {text : List Char} (plain : ∀ c ∈ text, radixDigit? c = none) :
    basedLength text = 0 := by
  unfold basedLength
  split
  next zero letter rest => rw [plain letter (.tail _ (.head rest))]
  · rfl

/-- The text of an integer is one token. -/
theorem numeral?_text {text digits : List Char} {base n : Nat} {suffix : Option Char}
    (written : IntegerText text base digits suffix) (numeral : Numeral base digits n) :
    numeral? text = some (.integer, text.length) := by
  cases written with
  | @based letter base groups suffix listed nonempty last =>
      obtain ⟨isDigit, radix⟩ := exists_radix listed
      have all : ∀ c ∈ DigitGroup.join groups, isDigit c = true := numeral.forall_mem radix.digits
      have stops : radixRun isDigit suffix.toList = 0 ∧
          suffixLength ['l', 'L'] suffix.toList = suffix.toList.length := by
        have small := radix.small
        have large := radix.large
        fin_cases last <;> simp [radixRun, suffixLength, *]
      have run := radixRun_groups radix.underscore all suffix.toList
      rw [stops.1, Nat.add_zero] at run
      have going : ((DigitGroup.markedBefore groups).length != 0) = true := by
        obtain ⟨group, rest, rfl⟩ := List.exists_cons_of_ne_nil nonempty
        simp [DigitGroup.markedBefore, group.nonempty]
      have based :
          basedLength ('0' :: letter :: (DigitGroup.markedBefore groups ++ suffix.toList)) =
          ('0' :: letter :: (DigitGroup.markedBefore groups ++ suffix.toList)).length := by
        rw [basedLength, radix.known]
        simp only [run, List.drop_left, stops.2, beq_self_eq_true, going, Bool.and_self, if_true,
          List.length_cons, List.length_append]
        omega
      rw [numeral?, based]
      rfl
  | @decimal groups suffix nonempty last =>
      have all : ∀ c ∈ DigitGroup.join groups, c.isDigit = true :=
        numeral.forall_mem (by decide)
      have stops : ∀ after, digitRunFrom after suffix.toList = 0 := by
        fin_cases last <;> intro after <;> rfl
      have whole : digitRun (DigitGroup.markedAfter groups ++ suffix.toList) =
          (DigitGroup.markedAfter groups).length := digitRunFrom_groups all stops false
      have unbased : basedLength (DigitGroup.markedAfter groups ++ suffix.toList) = 0 := by
        have plain : ∀ c ∈ DigitGroup.join groups, radixDigit? c = none :=
          numeral.forall_mem (by decide)
        refine basedLength_of_decimal fun c member => ?_
        rcases List.mem_append.mp member with inside | letter
        · rcases mem_markedAfter inside with digit | rfl
          · exact plain c digit
          · rfl
        · fin_cases last <;> simp at letter <;> rw [letter] <;> rfl
      have going : ((DigitGroup.markedAfter groups).length != 0) = true := by
        obtain ⟨group, rest, rfl⟩ := List.exists_cons_of_ne_nil nonempty
        simp [DigitGroup.markedAfter, group.nonempty]
      have unbroken : fractionLength (DigitGroup.markedAfter groups).length suffix.toList = 0 := by
        fin_cases last <;> simp [fractionLength, exponentLength]
      have ending : suffixLength ['l', 'L', 'j', 'J'] suffix.toList = suffix.toList.length := by
        fin_cases last <;> rfl
      simp only [numeral?, unbased, whole, List.drop_left, unbroken, ending, going, if_true,
        List.length_append, bne_self_eq_false, Bool.false_eq_true, if_false]

theorem exists_first_digit {text digits : List Char} {base n : Nat} {suffix : Option Char}
    (written : IntegerText text base digits suffix) (numeral : Numeral base digits n) :
    ∃ digit < 10, text.head? = some digit.digitChar := by
  cases written with
  | based => exact ⟨0, by decide, rfl⟩
  | @decimal groups suffix nonempty last =>
      have all : ∀ c ∈ DigitGroup.join groups, ∃ digit < 10, c = digit.digitChar :=
        numeral.forall_mem (by decide)
      obtain ⟨group, rest, rfl⟩ := List.exists_cons_of_ne_nil nonempty
      obtain ⟨c, more, same⟩ := List.exists_cons_of_ne_nil group.nonempty
      obtain ⟨digit, small, rfl⟩ := all c (by simp [DigitGroup.join, same])
      exact ⟨digit, small, by simp [DigitGroup.markedAfter, same]⟩

/-- A text that is one integer is a module of that integer. -/
theorem read_of_integer {text digits : List Char} {base n : Nat} {suffix : Option Char}
    (written : IntegerText text base digits suffix) (numeral : Numeral base digits n)
    {expr : Expr} (value : readExpr (.integer text) = .ok expr) :
    read (String.ofList text) = .ok ⟨[.expr expr]⟩ :=
  read_of_numeral (exists_first_digit written numeral) (numeral?_text written numeral) value

/-! ### Texts of tokens -/

theorem exists_base {letter : Char} {isDigit : Char → Bool}
    (known : radixDigit? letter = some isDigit) :
    ∃ base, (letter, base) ∈ radixLetters ∧ ∀ c, isDigit c = true → IsDigitOf base c := by
  unfold radixDigit? at known
  split at known
  next either =>
    obtain rfl := Option.some.inj known
    refine ⟨16, ?_, fun c => isDigitOf_of_isHexDigit⟩
    rcases Bool.or_eq_true_iff.mp either with same | same <;> rw [beq_iff_eq.mp same] <;> decide
  split at known
  next either =>
    obtain rfl := Option.some.inj known
    refine ⟨8, ?_, fun c => isDigitOf_of_isOctalDigit⟩
    rcases Bool.or_eq_true_iff.mp either with same | same <;> rw [beq_iff_eq.mp same] <;> decide
  split at known
  next either =>
    obtain rfl := Option.some.inj known
    refine ⟨2, ?_, fun c => isDigitOf_of_isBinaryDigit⟩
    rcases Bool.or_eq_true_iff.mp either with same | same <;> rw [beq_iff_eq.mp same] <;> decide
  next => cases known

theorem exists_groups_radixRun (isDigit : Char → Bool) (text : List Char) :
    ∃ groups, text.take (radixRun isDigit text) = DigitGroup.markedBefore groups ∧
      (∀ c ∈ DigitGroup.join groups, isDigit c = true) ∧
      (radixRun isDigit text ≠ 0 → groups ≠ []) := by
  fun_induction radixRun isDigit text with
  | case1 => exact ⟨[], rfl, by simp [DigitGroup.join], by simp⟩
  | case2 c rest digit ih =>
      obtain ⟨groups, taken, all, -⟩ := ih
      refine ⟨⟨[c], by simp, true⟩ :: groups, ?_, ?_, by simp⟩
      · rw [Nat.add_comm, List.take_succ_cons, List.take_succ_cons, taken]
        rfl
      · simpa [DigitGroup.join, digit] using all
  | case4 c rest _ digit ih =>
      obtain ⟨groups, taken, all, -⟩ := ih
      refine ⟨⟨[c], by simp, false⟩ :: groups, ?_, ?_, by simp⟩
      · rw [Nat.add_comm, List.take_succ_cons, taken]
        rfl
      · simpa [DigitGroup.join, digit] using all
  | case3 | case5 => exact ⟨[], rfl, by simp [DigitGroup.join], by simp⟩

theorem exists_groups_digitRunFrom (after : Bool) (text : List Char) :
    ∃ marked groups, (after = false → marked = false) ∧
      text.take (digitRunFrom after text) =
        (if marked then ['_'] else []) ++ DigitGroup.markedAfter groups ∧
      (∀ c ∈ DigitGroup.join groups, c.isDigit = true) ∧
      (after = false → digitRunFrom after text ≠ 0 → groups ≠ []) := by
  fun_induction digitRunFrom after text with
  | case1 => exact ⟨false, [], by simp, rfl, by simp [DigitGroup.join], by simp⟩
  | case2 after c rest digit ih =>
      obtain ⟨marked, groups, -, taken, all, -⟩ := ih
      refine ⟨false, ⟨[c], by simp, marked⟩ :: groups, by simp, ?_, ?_, by simp⟩
      · rw [Nat.add_comm, List.take_succ_cons, taken]
        rfl
      · simpa [DigitGroup.join, digit] using all
  | case3 after c rest _ underscore ih =>
      obtain ⟨marked, groups, unmarked, taken, all, -⟩ := ih
      simp only [Bool.and_eq_true, beq_iff_eq] at underscore
      refine ⟨true, groups, by simp [underscore.2], ?_, all, by simp [underscore.2]⟩
      rw [Nat.add_comm, List.take_succ_cons, taken, unmarked rfl, underscore.1]
      rfl
  | case4 => exact ⟨false, [], by simp, rfl, by simp [DigitGroup.join], by simp⟩

theorem exists_suffix (letters rest : List Char) :
    ∃ suffix : Option Char, suffix ∈ none :: letters.map some ∧
      rest.take (suffixLength letters rest) = suffix.toList := by
  cases rest with
  | nil => exact ⟨none, by simp, rfl⟩
  | cons c rest =>
      by_cases listed : letters.contains c
      · refine ⟨some c, by simpa using listed, ?_⟩
        rw [suffixLength, if_pos listed]
        rfl
      · refine ⟨none, by simp, ?_⟩
        rw [suffixLength, if_neg listed]
        rfl

theorem exists_integerText_based {text : List Char} (positive : basedLength text ≠ 0) :
    ∃ base digits suffix n, IntegerText (text.take (basedLength text)) base digits suffix ∧
      Numeral base digits n := by
  match text with
  | [] => exact absurd rfl positive
  | [_] => exact absurd rfl positive
  | zero :: letter :: rest =>
      rw [basedLength] at positive ⊢
      cases known : radixDigit? letter with
      | none => simp [known] at positive
      | some isDigit =>
          simp only [known] at positive ⊢
          split at positive
          next based =>
            simp only [Bool.and_eq_true, beq_iff_eq, bne_iff_ne] at based
            obtain ⟨rfl, going⟩ := based
            obtain ⟨base, listed, digitOf⟩ := exists_base known
            obtain ⟨groups, taken, all, nonempty⟩ := exists_groups_radixRun isDigit rest
            obtain ⟨suffix, last, letters⟩ :=
              exists_suffix ['l', 'L'] (rest.drop (radixRun isDigit rest))
            obtain ⟨n, numeral⟩ := Numeral.exists_numeral fun c member => digitOf c (all c member)
            refine ⟨base, _, suffix, n, ?_, numeral⟩
            have whole : ('0' :: letter :: rest).take (2 + radixRun isDigit rest +
                suffixLength ['l', 'L'] (rest.drop (radixRun isDigit rest))) =
                '0' :: letter :: (DigitGroup.markedBefore groups ++ suffix.toList) := by
              rw [Nat.add_assoc, Nat.add_comm 2, List.take_succ_cons, List.take_succ_cons,
                List.take_add, taken, letters]
            rw [if_pos (by simpa using going), whole]
            exact .based listed (nonempty going) (by simpa using last)
          next => exact absurd rfl positive

/-- Every token of an integer is the text of one. -/
theorem exists_integerText {text : List Char} {length : Nat}
    (found : numeral? text = some (.integer, length)) :
    ∃ base digits suffix n, IntegerText (text.take length) base digits suffix ∧
      Numeral base digits n := by
  unfold numeral? at found
  dsimp only at found
  split at found
  next based =>
    obtain ⟨-, rfl⟩ := Prod.mk.inj (Option.some.inj found)
    exact exists_integerText_based (by simpa using based)
  split at found
  next => cases found
  split at found
  next going =>
    obtain ⟨-, rfl⟩ := Prod.mk.inj (Option.some.inj found)
    obtain ⟨marked, groups, unmarked, taken, all, nonempty⟩ := exists_groups_digitRunFrom false text
    obtain ⟨suffix, last, letters⟩ :=
      exists_suffix ['l', 'L', 'j', 'J'] (text.drop (digitRun text))
    obtain ⟨n, numeral⟩ := Numeral.exists_numeral fun c member => isDigitOf_of_isDigit (all c member)
    refine ⟨10, _, suffix, n, ?_, numeral⟩
    rw [unmarked rfl] at taken
    have whole : text.take (digitRun text + suffixLength ['l', 'L', 'j', 'J']
        (text.drop (digitRun text))) = DigitGroup.markedAfter groups ++ suffix.toList := by
      rw [List.take_add, letters]
      exact congrArg (· ++ suffix.toList) taken
    rw [whole]
    have some_digit : digitRun text ≠ 0 := by simpa using going
    exact .decimal (nonempty rfl some_digit) (by simpa using last)
  next => cases found

theorem integerText_toDigits (n : Nat) :
    IntegerText (Nat.toDigits 10 n) 10 (Nat.toDigits 10 n) none := by
  have one := IntegerText.decimal
    (List.cons_ne_nil ⟨Nat.toDigits 10 n, Nat.toDigits_ne_nil, false⟩ [])
    (.head _ : none ∈ [none, some 'l', some 'L', some 'j', some 'J'])
  simpa [DigitGroup.markedAfter, DigitGroup.join, DigitGroup.mark] using one

/-- Every token of an integer is the text of one. It is read as the number that its digits denote if
that number fits 64 bits and no letter comes last, and as an unsupported node otherwise; so the text
that is rendered for an integer that is not negative is read as that integer. -/
theorem readExpr_integer_exact :
    (∀ {text : List Char} {length : Nat}, numeral? text = some (.integer, length) →
      ∃ base digits suffix n, IntegerText (text.take length) base digits suffix ∧
        Numeral base digits n) ∧
    (∀ {text digits : List Char} {base n : Nat} {suffix : Option Char},
      IntegerText text base digits suffix → Numeral base digits n →
        (suffix = none ∧ n ≤ 2 ^ 63 - 1 → ∃ value : Int64, value.toInt = n ∧
          readExpr (.integer text) = .ok (.constant (.int value)) ∧
          read (String.ofList text) = .ok ⟨[.expr (.constant (.int value))]⟩) ∧
        (¬(suffix = none ∧ n ≤ 2 ^ 63 - 1) →
          readExpr (.integer text) = .ok (.other "integer") ∧
          read (String.ofList text) = .ok ⟨[.expr (.other "integer")]⟩)) ∧
    (∀ (table : TokenTable) (value : Int64), 0 ≤ value.toInt → ∃ text,
      respellExpr table (.constant (.int value)) = (.rendered text, []) ∧
      read text = .ok ⟨[.expr (.constant (.int value))]⟩) := by
  refine ⟨exists_integerText, ?_, ?_⟩
  · intro text digits base n suffix written numeral
    have value := readExpr_integer written numeral
    constructor
    · rintro ⟨bare, small⟩
      rw [if_pos ⟨bare, by omega⟩] at value
      exact ⟨Int64.ofNat n, Int64.toInt_ofNat_of_lt (by omega), value,
        read_of_integer written numeral value⟩
    · intro outside
      rw [if_neg fun ⟨bare, small⟩ => outside ⟨bare, by omega⟩] at value
      exact ⟨value, read_of_integer written numeral value⟩
  · intro table value positive
    obtain ⟨n, same⟩ := Int.eq_ofNat_of_zero_le positive
    have small : n < 2 ^ 63 := by
      have := value.toInt_lt
      omega
    refine ⟨toString value.toInt, rfl, ?_⟩
    have written := integerText_toDigits n
    have numeral := Numeral.of_toDigits (by decide : 1 < 10) n
    have read_back := readExpr_integer written numeral
    have whole : Int64.ofNat n = value := by
      rw [← Int64.ofInt_toInt value, same]
      rfl
    rw [if_pos ⟨rfl, small⟩, whole] at read_back
    rw [same, ← String.ofList_toList (s := toString _), Syntax.toList_toString_natCast]
    exact read_of_integer written numeral read_back

theorem readExpr_integer_exact_boundary :
    IntegerText "0X_7fff_ffffffffffff".toList 16 "7fffffffffffffff".toList none ∧
      Numeral 16 "7fffffffffffffff".toList (2 ^ 63 - 1) ∧
      (∃ value : Int64, value.toInt = (2 ^ 63 - 1 : Nat) ∧
        read "0X_7fff_ffffffffffff" = .ok ⟨[.expr (.constant (.int value))]⟩) ∧
      IntegerText "9_223372036854775808".toList 10 "9223372036854775808".toList none ∧
      Numeral 10 "9223372036854775808".toList (2 ^ 63) ∧
      read "9_223372036854775808" = .ok ⟨[.expr (.other "integer")]⟩ := by
  have most : IntegerText "0X_7fff_ffffffffffff".toList 16 "7fffffffffffffff".toList none :=
    @IntegerText.based 'X' 16 [⟨"7fff".toList, by decide, true⟩,
      ⟨"ffffffffffff".toList, by decide, true⟩] none (by decide) (by simp) (by decide)
  have most_value : Numeral 16 "7fffffffffffffff".toList (2 ^ 63 - 1) :=
    Numeral.of_toDigits (by decide) (2 ^ 63 - 1)
  have large : IntegerText "9_223372036854775808".toList 10 "9223372036854775808".toList none :=
    @IntegerText.decimal [⟨"9".toList, by decide, true⟩,
      ⟨"223372036854775808".toList, by decide, false⟩] none (by simp) (by decide)
  have large_value : Numeral 10 "9223372036854775808".toList (2 ^ 63) :=
    Numeral.of_toDigits (by decide) (2 ^ 63)
  obtain ⟨value, same, -, read_back⟩ :=
    (readExpr_integer_exact.2.1 most most_value).1 ⟨rfl, by decide⟩
  exact ⟨most, most_value, ⟨value, same, read_back⟩, large, large_value,
    ((readExpr_integer_exact.2.1 large large_value).2 (by decide)).2⟩

end Respell.Source
