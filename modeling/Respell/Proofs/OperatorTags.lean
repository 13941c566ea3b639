import Mathlib
import Respell.Token.Operator

/-!
Tags of operators and keys of their tokens. A tag in camel case is a run of capitalised words, and its
snake case has the same words in lower case with underscores between them. Camel case gives the tag
back, so no two such tags share a key, and a tag names the token of a binary operator exactly if it is
the camel case of the token's key.
-/

set_option autoImplicit false

namespace Respell

open Syntax (BooleanOperator CompareOperator)

/-! ### Words -/

/-- A capitalised word: an upper case letter of ASCII, then lower case ones. -/
structure TagWord where
  initial : Char
  rest : List Char
  initial_isUpper : initial.isUpper = true
  rest_isLower : ∀ c ∈ rest, c.isLower = true

namespace TagWord

/-- The word as it stands in a tag. -/
def text (word : TagWord) : String := String.ofList (word.initial :: word.rest)

/-- The tag made of words. -/
def camel (words : List TagWord) : String := String.join (words.map text)

/-- The words in lower case, with underscores between them. -/
def snake (words : List TagWord) : String :=
  "_".intercalate (words.map fun word => word.text.toLower)

/-- Characters of the word in lower case, where only the first one changes. -/
def lower (word : TagWord) : List Char := word.initial.toLower :: word.rest

theorem initial_isAlpha (word : TagWord) : word.initial.isAlpha = true := by
  simp [Char.isAlpha, word.initial_isUpper]

theorem toList_toLower_text (word : TagWord) : word.text.toLower.toList = word.lower := by
  have same : word.rest.map Char.toLower = word.rest := by
    conv_rhs => rw [← List.map_id word.rest]
    refine List.map_congr_left fun c member => ?_
    exact Char.toLower_eq_of_not_isUpper (Char.not_isUpper_of_isLower (word.rest_isLower c member))
  rw [String.toLower, String.toList_map, text, String.toList_ofList, List.map_cons, same, lower]

theorem isLower_of_mem_lower {word : TagWord} {c : Char} (member : c ∈ word.lower) :
    c.isLower = true := by
  rcases List.mem_cons.mp member with rfl | member
  · rw [Char.isLower_toLower_eq_isAlpha, word.initial_isAlpha]
  · exact word.rest_isLower c member

theorem toList_camel_cons (word : TagWord) (words : List TagWord) :
    (camel (word :: words)).toList = word.initial :: (word.rest ++ (camel words).toList) := by
  simp [camel, text]

theorem toList_snake (words : List TagWord) :
    (snake words).toList = ['_'].intercalate (words.map lower) := by
  rw [snake, String.toList_intercalate, List.map_map]
  congr 1
  exact List.map_congr_left fun word _ => word.toList_toLower_text

/-- Every word after the first one comes with an underscore before it. -/
theorem toList_snake_cons (word : TagWord) (words : List TagWord) :
    (snake (word :: words)).toList = word.lower ++ words.flatMap fun word => '_' :: word.lower := by
  rw [toList_snake]
  induction words generalizing word with
  | nil => simp
  | cons next words ih =>
      rw [List.map_cons, List.map_cons, List.intercalate_cons_cons, ← List.map_cons, ih next]
      simp

end TagWord

/-- A tag in camel case: a run of capitalised words. -/
def IsCamelCase (tag : String) : Prop := ∃ words, tag = TagWord.camel words

theorem exists_words_of_isAlpha {chars : List Char} (letters : ∀ c ∈ chars, c.isAlpha = true) :
    ∃ rest words, (∀ c ∈ rest, c.isLower = true) ∧
      chars = rest ++ (TagWord.camel words).toList := by
  induction chars with
  | nil => exact ⟨[], [], by simp, rfl⟩
  | cons c chars ih =>
      obtain ⟨letter, others⟩ := List.forall_mem_cons.mp letters
      obtain ⟨rest, words, lower, rfl⟩ := ih others
      -- an upper case letter completes the word that the letters after it leave open
      by_cases upper : c.isUpper = true
      · exact ⟨[], ⟨c, rest, upper, lower⟩ :: words, by simp, by simp [TagWord.toList_camel_cons]⟩
      · have first : c.isLower = true := by simpa [Char.isAlpha, upper] using letter
        exact ⟨c :: rest, words, List.forall_mem_cons.mpr ⟨first, lower⟩, rfl⟩

/-- Camel case is letters of ASCII, of which the first one is upper case. -/
theorem isCamelCase_iff {tag : String} :
    IsCamelCase tag ↔
      tag.toList.all Char.isAlpha = true ∧ tag.toList.head?.all Char.isUpper = true := by
  rw [List.all_eq_true]
  constructor
  · rintro ⟨words, rfl⟩
    constructor
    · induction words with
      | nil => simp [TagWord.camel]
      | cons word words ih =>
          rw [TagWord.toList_camel_cons]
          intro c member
          rcases List.mem_cons.mp member with rfl | member
          · exact word.initial_isAlpha
          · rcases List.mem_append.mp member with member | member
            · simp [Char.isAlpha, word.rest_isLower c member]
            · exact ih c member
    · cases words with
      | nil => simp [TagWord.camel]
      | cons word words => simp [TagWord.toList_camel_cons, word.initial_isUpper]
  · rintro ⟨letters, first⟩
    obtain ⟨rest, words, lower, whole⟩ := exists_words_of_isAlpha letters
    cases rest with
    | nil => exact ⟨words, String.toList_inj.mp whole⟩
    | cons c rest =>
        have upper : c.isUpper = true := by simpa [whole] using first
        exact absurd (lower c List.mem_cons_self) (Char.not_isLower_of_isUpper upper)

instance (tag : String) : Decidable (IsCamelCase tag) := decidable_of_iff _ isCamelCase_iff.symm

/-! ### Snake case -/

/-- What a character of a tag becomes after the first one. -/
def snakeChar (c : Char) : List Char :=
  if Text.isUpper c then '_' :: Text.toLower c else Text.toLower c

theorem toList_snakeCase {tag : String} {c : Char} {rest : List Char}
    (shape : tag.toList = c :: rest) :
    (snakeCase tag).toList = Text.toLower c ++ rest.flatMap snakeChar := by
  rw [snakeCase, shape]
  exact String.toList_ofList

theorem ascii_of_isAlpha {c : Char} (letter : c.isAlpha = true) : c.toNat < 128 := by
  have range : 65 ≤ c.toNat ∧ c.toNat ≤ 90 ∨ 97 ≤ c.toNat ∧ c.toNat ≤ 122 := by
    simpa [Char.isAlpha, Char.isUpper, Char.isLower, UInt32.le_iff_toNat_le, ← Char.toNat_val]
      using letter
  omega

theorem Text.toLower_of_isAlpha {c : Char} (letter : c.isAlpha = true) :
    Text.toLower c = [c.toLower] := if_pos (ascii_of_isAlpha letter)

theorem snakeChar_of_isUpper {c : Char} (upper : c.isUpper = true) :
    snakeChar c = ['_', c.toLower] := by
  have letter : c.isAlpha = true := by simp [Char.isAlpha, upper]
  simp [snakeChar, Text.isUpper, ascii_of_isAlpha letter, upper, Text.toLower_of_isAlpha letter]

theorem snakeChar_of_isLower {c : Char} (lower : c.isLower = true) : snakeChar c = [c] := by
  have letter : c.isAlpha = true := by simp [Char.isAlpha, lower]
  have other := Char.not_isUpper_of_isLower lower
  simp [snakeChar, Text.isUpper, ascii_of_isAlpha letter, other, Text.toLower_of_isAlpha letter,
    Char.toLower_eq_of_not_isUpper other]

theorem flatMap_snakeChar_of_isLower {chars : List Char} (lower : ∀ c ∈ chars, c.isLower = true) :
    chars.flatMap snakeChar = chars := by
  induction chars with
  | nil => rfl
  | cons c chars ih =>
      obtain ⟨first, others⟩ := List.forall_mem_cons.mp lower
      rw [List.flatMap_cons, snakeChar_of_isLower first, ih others, List.singleton_append]

/-- After the first word, underscores are put exactly where words begin. -/
theorem flatMap_snakeChar_camel (words : List TagWord) :
    (TagWord.camel words).toList.flatMap snakeChar = words.flatMap fun word => '_' :: word.lower := by
  induction words with
  | nil => rfl
  | cons word words ih =>
      rw [TagWord.toList_camel_cons, List.flatMap_cons, List.flatMap_append, ih, List.flatMap_cons,
        snakeChar_of_isUpper word.initial_isUpper, flatMap_snakeChar_of_isLower word.rest_isLower]
      simp [TagWord.lower]

/-- Snake case of a run of words is the words in lower case, joined with underscores. -/
theorem snakeCase_camel (words : List TagWord) :
    snakeCase (TagWord.camel words) = TagWord.snake words := by
  cases words with
  | nil => rfl
  | cons word words =>
      apply String.toList_inj.mp
      rw [toList_snakeCase (TagWord.toList_camel_cons word words),
        Text.toLower_of_isAlpha word.initial_isAlpha, List.flatMap_append,
        flatMap_snakeChar_of_isLower word.rest_isLower, flatMap_snakeChar_camel,
        TagWord.toList_snake_cons]
      simp [TagWord.lower]

/-! ### Camel case -/

/-- A text with its first character in upper case. -/
def capitalize : List Char → List Char
  | [] => []
  | c :: rest => c.toUpper :: rest

/-- Camel case of a key: the texts between underscores, capitalised. -/
def camelCase (key : String) : String :=
  String.ofList ((key.toList.splitOn '_').flatMap capitalize)

theorem capitalize_lower (word : TagWord) : capitalize word.lower = word.text.toList := by
  have upper : word.initial.toUpper = word.initial :=
    Char.toUpper_eq_of_not_isLower (Char.not_isLower_of_isUpper word.initial_isUpper)
  rw [TagWord.lower, capitalize, Char.toUpper_toLower_eq_toUpper, upper, TagWord.text,
    String.toList_ofList]

theorem camelCase_snake (words : List TagWord) :
    camelCase (TagWord.snake words) = TagWord.camel words := by
  -- the empty text splits into one empty part, although it is the join of no words
  by_cases empty : words = []
  · rw [empty]
    rfl
  · have plain : ∀ part ∈ words.map TagWord.lower, '_' ∉ part := by
      intro part member underscore
      obtain ⟨word, -, rfl⟩ := List.mem_map.mp member
      exact absurd (TagWord.isLower_of_mem_lower underscore) (by decide)
    have parts : (TagWord.snake words).toList.splitOn '_' = words.map TagWord.lower := by
      rw [TagWord.toList_snake]
      exact List.splitOn_intercalate '_' plain (by simpa using empty)
    apply String.toList_inj.mp
    rw [camelCase, parts, String.toList_ofList, TagWord.camel, String.toList_join]
    simp only [List.flatMap_map, capitalize_lower]

theorem camelCase_snakeCase {tag : String} (camel : IsCamelCase tag) :
    camelCase (snakeCase tag) = tag := by
  obtain ⟨words, rfl⟩ := camel
  rw [snakeCase_camel, camelCase_snake]

/-! ### Tokens of binary operators -/

namespace OperatorToken

theorem ofKey?_eq_some_iff {key : String} {token : OperatorToken} :
    ofKey? key = some token ↔ token.key = key := by
  constructor
  · intro found
    simpa using List.find?_some found
  · rintro rfl
    cases token <;> decide

theorem isBinary_iff {token : OperatorToken} :
    token.isBinary = true ↔ (∀ op, token ≠ ofCompare op) ∧ ∀ op, token ≠ ofBoolean op := by
  constructor
  · intro binary
    constructor
    · rintro op rfl
      cases op <;> cases binary
    · rintro op rfl
      cases op <;> cases binary
  · rintro ⟨compare, boolean⟩
    have kinds : token.isBinary = true ∨ token ∈ CompareOperator.all.map ofCompare ∨
        token ∈ BooleanOperator.all.map ofBoolean := by
      cases token <;> decide
    rcases kinds with binary | member | member
    · exact binary
    · obtain ⟨op, -, rfl⟩ := List.mem_map.mp member
      exact absurd rfl (compare op)
    · obtain ⟨op, -, rfl⟩ := List.mem_map.mp member
      exact absurd rfl (boolean op)

theorem snakeCase_camelCase_key (token : OperatorToken) :
    snakeCase (camelCase token.key) = token.key := by
  cases token <;> decide

theorem ofBinaryTag?_eq_some_iff {tag : String} {token : OperatorToken} :
    ofBinaryTag? tag = some token ↔ token.key = snakeCase tag ∧
      (∀ op, token ≠ ofCompare op) ∧ ∀ op, token ≠ ofBoolean op := by
  rw [ofBinaryTag?, Option.filter_eq_some_iff, ofKey?_eq_some_iff, isBinary_iff]

theorem key_eq_snakeCase_iff {tag : String} {token : OperatorToken} (camel : IsCamelCase tag) :
    token.key = snakeCase tag ↔ tag = camelCase token.key := by
  constructor
  · intro same
    rw [same, camelCase_snakeCase camel]
  · rintro rfl
    exact (snakeCase_camelCase_key token).symm

end OperatorToken

/-- Snake case loses nothing on tags in camel case: it is the words in lower case joined with
underscores, different tags have different ones, and a tag names the token of a binary operator
exactly if it is the camel case of the token's key and the token is neither that of a comparison
nor that of a boolean operator. -/
theorem snakeCase_lossless :
    (∀ words : List TagWord, snakeCase (TagWord.camel words) =
      "_".intercalate (words.map fun word => word.text.toLower)) ∧
    Set.InjOn snakeCase {tag | IsCamelCase tag} ∧
    ∀ tag token, IsCamelCase tag → (OperatorToken.ofBinaryTag? tag = some token ↔
      tag = camelCase token.key ∧ (∀ op, token ≠ .ofCompare op) ∧ ∀ op, token ≠ .ofBoolean op) := by
  refine ⟨snakeCase_camel, ?_, fun tag token camel => ?_⟩
  · have inverse : Set.LeftInvOn camelCase snakeCase {tag | IsCamelCase tag} :=
      fun tag camel => camelCase_snakeCase camel
    exact inverse.injOn
  · rw [OperatorToken.ofBinaryTag?_eq_some_iff, OperatorToken.key_eq_snakeCase_iff camel]

/-- A tag with a word of one letter, another one that differs in its words only, and one whose key is
that of a comparison. -/
theorem snakeCase_lossless_shift :
    (IsCamelCase "LShift" ∧ IsCamelCase "Lshift" ∧ IsCamelCase "Equal") ∧
      snakeCase "LShift" = "l_shift" ∧ snakeCase "LShift" ≠ snakeCase "Lshift" ∧
      OperatorToken.ofBinaryTag? "LShift" = some .lShift ∧
      OperatorToken.ofBinaryTag? "Equal" ≠ some .equal := by
  have shift : IsCamelCase "LShift" := by decide
  have other : IsCamelCase "Lshift" := by decide
  have equal : IsCamelCase "Equal" := by decide
  obtain ⟨joined, injective, resolves⟩ := snakeCase_lossless
  refine ⟨⟨shift, other, equal⟩, ?_, fun same => ?_, ?_, fun found => ?_⟩
  · exact (joined [⟨'L', [], rfl, List.all_eq_true.mp rfl⟩,
      ⟨'S', ['h', 'i', 'f', 't'], rfl, List.all_eq_true.mp rfl⟩]).trans (by cbv)
  · exact absurd (injective shift other same) (by decide)
  · refine (resolves _ _ shift).mpr ⟨rfl, fun op => ?_, fun op => ?_⟩
    · cases op <;> decide
    · cases op <;> decide
  · exact ((resolves _ _ equal).mp found).2.1 .eq rfl

/-- Beyond camel case, tags may share a key. -/
example : snakeCase "bit_or" = snakeCase "BitOr" := by decide

end Respell
