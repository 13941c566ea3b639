import Respell.Proofs.Cut.Token

/-!
Layout of a text that is cut at a break. A scan over blanks that stops before the cut finds the same
with and without what follows; one that gets to the cut finds the end of the text in the one case and
goes on in the other.
-/

set_option autoImplicit false

namespace Respell.Source

variable {tail : List Char} {layout : Bool}

namespace Scan

/-- What a scan has seen after it passed all of a text. -/
def across (layout : Bool) (scan : Scan) : List Char → Option Scan
  | [] => some scan
  | c :: rest =>
    match scan.step layout c with
    | .pass next => next.across layout rest
    | _ => none

theorem across_append {scan next : Scan} {text rest : List Char}
    (passed : scan.across layout text = some next) :
    scan.across layout (text ++ rest) = next.across layout rest := by
  induction text generalizing scan with
  | nil => rw [← Option.some.inj passed, List.nil_append]
  | cons c text ih =>
      cases stepped : scan.step layout c <;> simp only [across, stepped, List.cons_append] at passed ⊢
      case pass => exact ih passed
      all_goals cases passed

end Scan

/-- A place reached in a text that goes on. -/
def Reached.extend (tail : List Char) (reached : Reached) : Reached :=
  { reached with rest := reached.rest ++ tail }

theorem passBlanks_across {scan next : Scan} {text rest : List Char}
    (passed : scan.across layout text = some next) :
    passBlanks layout scan (text ++ rest) = passBlanks layout next rest := by
  induction text generalizing scan with
  | nil => rw [← Option.some.inj passed, List.nil_append]
  | cons c text ih =>
      cases stepped : scan.step layout c <;>
        simp only [Scan.across, passBlanks, stepped, List.cons_append] at passed ⊢
      case pass => exact ih passed
      all_goals cases passed

/-- A scan that passes a text ends at a line of its own. -/
theorem passBlanks_of_across {scan next : Scan} {text : List Char}
    (passed : scan.across layout text = some next) :
    passBlanks layout scan text = some ⟨true, 0, next.comment, []⟩ := by
  rw [← List.append_nil text, passBlanks_across passed, passBlanks]

/-- A scan that does not pass a text finds the same in a longer one. -/
theorem passBlanks_extend {scan : Scan} {text : List Char}
    (stopped : scan.across layout text = none) :
    passBlanks layout scan (text ++ tail) =
      (passBlanks layout scan text).map (Reached.extend tail) := by
  induction text generalizing scan with
  | nil => cases stopped
  | cons c text ih =>
      cases stepped : scan.step layout c <;>
        simp only [Scan.across, passBlanks, stepped, List.cons_append] at stopped ⊢
      case pass => exact ih stopped
      case reach => rfl
      case fail => rfl

/-- A scan that does not pass a text stops before its end. -/
theorem rest_ne_nil_of_passBlanks {scan : Scan} {text : List Char} {reached : Reached}
    (stopped : scan.across layout text = none)
    (found : passBlanks layout scan text = some reached) : reached.rest ≠ [] := by
  induction text generalizing scan with
  | nil => cases stopped
  | cons c text ih =>
      cases stepped : scan.step layout c <;>
        simp only [Scan.across, passBlanks, stepped] at stopped found
      case pass => exact ih stopped found
      case reach =>
        rw [← Option.some.inj found]
        exact List.cons_ne_nil c text
      case fail => cases found

/-! ### Comments -/

namespace Scan

/-- A scan that had passed a comment before. -/
def under (comment : Option Nat) (scan : Scan) : Scan :=
  { scan with comment := comment.or scan.comment }

/-- What a character means to a changed scan, if it means the same. -/
def Step.map (change : Scan → Scan) : Step → Step
  | pass next => pass (change next)
  | reach => reach
  | fail => fail

theorem step_under (comment : Option Nat) (scan : Scan) (c : Char) :
    (scan.under comment).step layout c = (scan.step layout c).map (under comment) := by
  obtain ⟨mode, crossed, indent, seen⟩ := scan
  cases mode <;> simp only [step, under] <;> split_ifs <;>
    simp_all [Step.map, under]

end Scan

theorem passBlanks_under (comment : Option Nat) (scan : Scan) (text : List Char) :
    passBlanks layout (scan.under comment) text = (passBlanks layout scan text).map fun reached =>
      { reached with comment := comment.or reached.comment } := by
  induction text generalizing scan with
  | nil => rfl
  | cons c text ih =>
      rw [passBlanks, passBlanks, Scan.step_under]
      cases scan.step layout c with
      | pass next => exact ih next
      | reach => rfl
      | fail => rfl

theorem Scan.across_under (comment : Option Nat) (scan : Scan) (text : List Char) :
    (scan.under comment).across layout text = (scan.across layout text).map (Scan.under comment) := by
  induction text generalizing scan with
  | nil => rfl
  | cons c text ih =>
      rw [Scan.across, Scan.across, Scan.step_under]
      cases scan.step layout c with
      | pass next => exact ih next
      | reach => rfl
      | fail => rfl

theorem comment_of_across {scan next : Scan} {text : List Char} {width : Nat}
    (passed : scan.across layout text = some next) (seen : scan.comment = some width) :
    next.comment = some width := by
  have under : scan = scan.under (some width) := by simp [Scan.under, ← seen]
  rw [under, Scan.across_under] at passed
  obtain ⟨_, -, rfl⟩ := Option.map_eq_some_iff.mp passed
  rfl

theorem comment_of_passBlanks {scan : Scan} {text : List Char} {reached : Reached} {width : Nat}
    (found : passBlanks layout scan text = some reached) (seen : scan.comment = some width) :
    reached.comment = some width := by
  have under : scan = scan.under (some width) := by simp [Scan.under, ← seen]
  rw [under, passBlanks_under] at found
  obtain ⟨_, -, rfl⟩ := Option.map_eq_some_iff.mp found
  rfl

/-! ### Crossing a line end -/

/-- What a character means to a scan that has passed no line end, and to one with another past. -/
inductive Scan.Beside : Step → Step → Prop
  /-- From here on both are the same. -/
  | joined (next : Scan) : Beside (.pass next) (.pass next)
  /-- They still differ in their past alone. -/
  | apart {mode : ScanMode} (noComment : mode ≠ .comment) (crossed : Bool) (indent width : Nat) :
    Beside (.pass ⟨mode, false, width, none⟩) (.pass ⟨mode, crossed, indent, none⟩)
  | reached : Beside .reach .reach
  | failed (other : Step) : Beside .fail other

theorem Scan.step_beside {mode : ScanMode} (noComment : mode ≠ .comment) (crossed : Bool)
    (indent width : Nat) (c : Char) :
    Beside (Scan.step layout ⟨mode, false, width, none⟩ c)
      (Scan.step layout ⟨mode, crossed, indent, none⟩ c) := by
  cases mode <;> simp only [step, Bool.false_eq_true, if_false]
  case comment => exact absurd rfl noComment
  all_goals
    split_ifs <;>
      first
        | exact .joined _
        | exact .apart (by decide) _ _ _
        | exact .reached
        | exact .failed _

/-- Once a line end is passed it does not matter what came before it. -/
theorem passBlanks_crossed {mode : ScanMode} (noComment : mode ≠ .comment) (crossed : Bool)
    (indent : Nat) {width : Nat} {text : List Char} {reached : Reached}
    (found : passBlanks layout ⟨mode, false, width, none⟩ text = some reached)
    (across : reached.crossed = true) :
    passBlanks layout ⟨mode, crossed, indent, none⟩ text = some reached := by
  induction text generalizing mode crossed indent width with
  | nil => exact found
  | cons c text ih =>
      have beside := @Scan.step_beside layout mode noComment crossed indent width c
      rw [passBlanks] at found ⊢
      generalize Scan.step layout ⟨mode, false, width, none⟩ c = first at beside found
      generalize Scan.step layout ⟨mode, crossed, indent, none⟩ c = second at beside
      cases beside with
      | joined next => exact found
      | apart inBlank => exact ih inBlank _ _ found
      | reached =>
          rw [← Option.some.inj found] at across
          cases across
      | failed => cases found

/-- A text that a scan with another past passes is passed by a fresh one, or it gets stuck in it. -/
theorem across_or_stuck {mode : ScanMode} (noComment : mode ≠ .comment) {crossed : Bool}
    {indent : Nat} (width : Nat) {text : List Char} {next : Scan}
    (passed : Scan.across layout ⟨mode, crossed, indent, none⟩ text = some next) :
    (∃ other, Scan.across layout ⟨mode, false, width, none⟩ text = some other) ∨
      passBlanks layout ⟨mode, false, width, none⟩ text = none := by
  induction text generalizing mode crossed indent width with
  | nil => exact .inl ⟨_, rfl⟩
  | cons c text ih =>
      have beside := @Scan.step_beside layout mode noComment crossed indent width c
      rw [Scan.across] at passed ⊢
      rw [passBlanks]
      generalize Scan.step layout ⟨mode, false, width, none⟩ c = first at beside
      generalize Scan.step layout ⟨mode, crossed, indent, none⟩ c = second at beside passed
      cases beside with
      | joined other => exact .inl ⟨next, passed⟩
      | apart inBlank => exact ih inBlank _ passed
      | reached => cases passed
      | failed => exact .inr rfl

theorem Scan.eq_under (mode : ScanMode) (crossed : Bool) (indent : Nat) (comment : Option Nat) :
    (⟨mode, crossed, indent, comment⟩ : Scan) = Scan.under comment ⟨mode, crossed, indent, none⟩ := by
  simp [Scan.under]

/-- A place that a fresh scan reaches over a line end is reached by any other. -/
theorem passBlanks_of_fresh {crossed : Bool} {indent : Nat} {comment : Option Nat}
    {text : List Char} {reached : Reached} (found : passBlanks layout .fresh text = some reached)
    (across : reached.crossed = true) :
    passBlanks layout ⟨.blank, crossed, indent, comment⟩ text =
      some { reached with comment := comment.or reached.comment } := by
  rw [Scan.eq_under, passBlanks_under, passBlanks_crossed (by decide) crossed indent found across,
    Option.map_some]

/-- A text that a scan passes is passed by a fresh one, or that one gets stuck in it. -/
theorem fresh_across_or_stuck {crossed : Bool} {indent : Nat} {comment : Option Nat}
    {text : List Char} {next : Scan}
    (passed : Scan.across layout ⟨.blank, crossed, indent, comment⟩ text = some next) :
    (∃ other, Scan.fresh.across layout text = some other) ∨
      Scan.fresh.across layout text = none ∧ passBlanks layout .fresh text = none := by
  rw [Scan.eq_under, Scan.across_under] at passed
  obtain ⟨plain, passed, -⟩ := Option.map_eq_some_iff.mp passed
  rcases across_or_stuck (by decide) 0 passed with fresh | stuck
  · exact .inl fresh
  · cases found : Scan.fresh.across layout text with
    | some other => exact .inl ⟨other, rfl⟩
    | none => exact .inr ⟨rfl, stuck⟩

/-! ### Marks -/

/-- An input whose text goes on. -/
def Input.extend (tail : List Char) (input : Input) : Input :=
  { input with rest := input.rest ++ tail }

/-- A mark in a text that goes on. -/
def Mark.extend (tail : List Char) : Mark → Mark
  | quote opened start length => quote opened (start ++ tail) length
  | mark => mark

theorem closesBlock_extend {valid : Valid} {input : Input} {reached : Reached}
    (before : reached.rest ≠ []) :
    closesBlock valid (input.extend tail) (reached.extend tail) =
      closesBlock valid input reached := by
  have head : (reached.extend tail).rest.head? = reached.rest.head? := by
    obtain ⟨c, rest, same⟩ := List.exists_cons_of_ne_nil before
    simp [Reached.extend, same]
  rw [closesBlock, closesBlock, mayClose, mayClose, head]
  rfl

theorem markAt_extend (cut : atBreak tail = true) {valid : Valid} {input : Input}
    {reached : Reached} (before : reached.rest ≠ []) :
    (input.extend tail).markAt valid (reached.extend tail) =
      (input.markAt valid reached).extend tail := by
  have opened : Quote.open? (reached.extend tail).rest = Quote.open? reached.rest :=
    open?_append cut reached.rest
  have deeper : (input.extend tail).isDeeper (reached.extend tail).indent =
      input.isDeeper reached.indent := rfl
  have crossed : (reached.extend tail).crossed = reached.crossed := rfl
  have comment : (reached.extend tail).comment = reached.comment := rfl
  rw [Input.markAt, Input.markAt, closesBlock_extend before, opened, deeper, crossed, comment]
  split_ifs <;> try rfl
  split <;> rfl

/-- A mark found before a cut is the same in a text that goes on. -/
theorem mark_extend (cut : atBreak tail = true) {valid : Valid} {input : Input}
    (stopped : Scan.fresh.across valid.layout input.rest = none) :
    (input.extend tail).mark valid = (input.mark valid).extend tail := by
  have passed : passBlanks valid.layout .fresh (input.extend tail).rest =
      (passBlanks valid.layout .fresh input.rest).map (Reached.extend tail) :=
    passBlanks_extend stopped
  rw [Input.mark, Input.mark, passed]
  cases found : passBlanks valid.layout .fresh input.rest with
  | none => rfl
  | some reached => exact markAt_extend cut (rest_ne_nil_of_passBlanks stopped found)

end Respell.Source
