import Mathlib
import Respell.Files.Path

/-!
Paths read back: a file name is its stem, a dot and its extension, and a path that is joined from a
directory and a name leads to that name.
-/

set_option autoImplicit false

namespace Respell.Path

/-- A name is divided at its last dot, which does not come first. -/
structure Splits (name stem extension : String) : Prop where
  joined : name = stem ++ "." ++ extension
  some_stem : stem ≠ ""
  last : '.' ∉ extension.toList

section Divide

variable {before last : List Char}

/-- Division looks for the last dot. -/
theorem divide_of_dot (single : '.' ∉ last) :
    divide (String.ofList (before ++ '.' :: last)) =
      if before = [] then (String.ofList (before ++ '.' :: last), none)
      else (String.ofList before, some (String.ofList last)) := by
  have turned : (before ++ '.' :: last).reverse = last.reverse ++ '.' :: before.reverse := by simp
  have taken : (last.reverse ++ '.' :: before.reverse).takeWhile (· != '.') = last.reverse := by
    rw [List.takeWhile_append_of_pos]
    · simp
    · intro c member
      have other : c ≠ '.' := fun same => single (same ▸ List.mem_reverse.mp member)
      simpa using other
  have dropped : (last.reverse ++ '.' :: before.reverse).drop last.length =
      '.' :: before.reverse := List.drop_left' (List.length_reverse ..)
  simp only [divide, String.toList_ofList, turned, taken, List.reverse_reverse, dropped,
    List.reverse_cons]
  rcases before with _ | ⟨first, _ | ⟨second, rest⟩⟩
  · rfl
  · rfl
  · change (String.ofList (first :: second :: rest ++ ['.']).dropLast, _) = _
    rw [List.dropLast_concat]
    rfl

theorem divide_of_no_dot {name : String} (plain : '.' ∉ name.toList) : divide name = (name, none) := by
  have taken : name.toList.reverse.takeWhile (· != '.') = name.toList.reverse := by
    rw [List.takeWhile_eq_self_iff]
    intro c member
    have other : c ≠ '.' := fun same => plain (same ▸ List.mem_reverse.mp member)
    simpa using other
  have dropped : name.toList.reverse.drop name.toList.length = [] := List.drop_eq_nil_of_le (by simp)
  simp [divide, taken, dropped]

theorem divide_eq_some_iff {name stem extension : String} :
    divide name = (stem, some extension) ↔ Splits name stem extension := by
  constructor
  · intro divided
    by_cases dotted : '.' ∈ name.toList
    · obtain ⟨last, before, turned, single⟩ := List.eq_append_cons_of_mem (List.mem_reverse.mpr dotted)
      have text : name.toList = before.reverse ++ '.' :: last.reverse := by
        rw [← List.reverse_reverse name.toList, turned]
        simp
      have single' : '.' ∉ last.reverse := by simpa using single
      rw [← String.ofList_toList (s := name), text, divide_of_dot single'] at divided
      split at divided
      next => cases divided
      next some_stem =>
        obtain ⟨rfl, same⟩ := Prod.mk.inj divided
        obtain rfl := Option.some.inj same
        refine ⟨?_, ?_, by simpa using single⟩
        · apply String.toList_inj.mp
          simp [text]
        · intro none
          exact some_stem (by simpa using congrArg String.toList none)
    · rw [divide_of_no_dot dotted] at divided
      cases divided
  · rintro ⟨rfl, some_stem, last⟩
    have text : stem ++ "." ++ extension = String.ofList (stem.toList ++ '.' :: extension.toList) := by
      apply String.toList_inj.mp
      simp
    have nonempty : stem.toList ≠ [] := fun none => some_stem (String.toList_inj.mp (by simpa using none))
    rw [text, divide_of_dot last, if_neg nonempty, String.ofList_toList, String.ofList_toList]

/-- A name is divided in one way. -/
theorem Splits.unique {name stem stem' extension extension' : String}
    (splits : Splits name stem extension) (splits' : Splits name stem' extension') :
    stem = stem' ∧ extension = extension' := by
  have same := (divide_eq_some_iff.mpr splits).symm.trans (divide_eq_some_iff.mpr splits')
  obtain ⟨stems, extensions⟩ := Prod.mk.inj same
  exact ⟨stems, Option.some.inj extensions⟩

end Divide

theorem split_of_no_slash {text : List Char} (single : '/' ∉ text) : split text = [text] := by
  induction text with
  | nil => rfl
  | cons c rest ih =>
      have other : c ≠ '/' := fun same => single (same ▸ List.mem_cons_self ..)
      rw [split, ih fun later => single (List.mem_cons_of_mem c later)]
      simp [other]

theorem split_ne_nil (text : List Char) : split text ≠ [] := by
  cases text with
  | nil => simp [split]
  | cons c rest =>
      rw [split]
      split
      · split <;> simp
      · simp

/-- A path is split at each of its slashes. -/
theorem split_append_slash (before after : List Char) :
    split (before ++ '/' :: after) = split before ++ split after := by
  induction before with
  | nil =>
      obtain ⟨first, more, shape⟩ := List.exists_cons_of_ne_nil (split_ne_nil after)
      simp [split, shape]
  | cons c rest ih =>
      obtain ⟨first, more, shape⟩ := List.exists_cons_of_ne_nil (split_ne_nil rest)
      rw [List.cons_append, split, ih, shape, split, shape]
      by_cases slash : c = '/' <;> simp [slash]

/-- A path joined from a directory and a name leads to the name. -/
theorem fileName?_join (directory : String) (name : FileName) :
    fileName? (join directory name.text) = some name.text := by
  have proper := name.proper
  simp only [isName, Bool.and_eq_true, bne_iff_ne, ne_eq, Bool.not_eq_true', List.contains_eq_mem,
    decide_eq_false_iff_not] at proper
  obtain ⟨⟨⟨nonempty, notDot⟩, notDots⟩, single⟩ := proper
  have last : ∃ before, split (join directory name.text).toList = before ++ [name.text.toList] := by
    unfold join
    split
    next slash =>
      obtain ⟨start, shape⟩ := List.getLast?_eq_some_iff.mp (beq_iff_eq.mp slash)
      refine ⟨split start, ?_⟩
      rw [String.toList_append, shape, List.append_assoc, List.singleton_append, split_append_slash,
        split_of_no_slash single]
    next =>
      have joined : (directory ++ "/" ++ name.text).toList =
          directory.toList ++ '/' :: name.text.toList := by simp
      refine ⟨split directory.toList, ?_⟩
      rw [joined, split_append_slash, split_of_no_slash single]
  obtain ⟨before, shape⟩ := last
  have parted : (parts (join directory name.text)).getLast? = some name.text := by
    rw [parts, shape, List.map_append, List.filter_append]
    simp [nonempty, notDot]
  rw [fileName?, parted]
  split
  next same => exact absurd (Option.some.inj same) notDots
  next => rfl

theorem stem?_join (directory : String) (name : FileName) :
    stem? (join directory name.text) = some (divide name.text).1 := by
  rw [stem?, fileName?_join]
  rfl

theorem extension?_join (directory : String) (name : FileName) :
    extension? (join directory name.text) = (divide name.text).2 := by
  rw [extension?, fileName?_join]
  rfl

end Respell.Path
