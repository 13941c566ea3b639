import Respell.Proofs.StrictRendering

/-!
Reading back what was rendered without operators. Where every token that shapes such an expression is
a character of its own, a machine with a stack of open brackets reads the text from left to right and
finds the expression again. So no two expressions have one text.
-/

set_option autoImplicit false

namespace Respell

open Syntax (DictEntry Expr)

/-- The tokens that give a shape to expressions without operators. -/
def Token.punctuation : List Token :=
  [.access .attribute, .access .subscriptOpen, .access .subscriptClose,
    .function .argumentSeparator, .literal .listBegin, .literal .listJoin, .literal .listEnd,
    .literal .tupleBegin, .literal .tupleJoin, .literal .tupleEnd, .literal .dictBegin,
    .literal .dictJoin, .literal .dictEnd, .literal .dictAssign, .literal .stringBegin,
    .literal .stringEnd]

/-- Each of these tokens is spelled by one character, its mark; the marks are different, and none is
a parenthesis. -/
structure TokenTable.Punctuates (table : TokenTable) (mark : Token → Char) : Prop where
  /-- A token is spelled by its mark. -/
  spelled : ∀ token ∈ Token.punctuation, table.get? token = some (String.singleton (mark token))
  /-- Different tokens have different marks. -/
  distinct : ∀ first ∈ Token.punctuation, ∀ second ∈ Token.punctuation,
    mark first = mark second → first = second
  /-- No mark is a parenthesis. -/
  noParenthesis : ∀ token ∈ Token.punctuation, mark token ≠ '(' ∧ mark token ≠ ')'

/-- Texts without marks and parentheses. -/
def Unmarked (mark : Token → Char) (text : String) : Prop :=
  ∀ c ∈ text.toList, c ≠ '(' ∧ c ≠ ')' ∧ ∀ token ∈ Token.punctuation, c ≠ mark token

/-- Expressions without operators, named arguments and spread mappings, whose texts satisfy a
condition. Names and attributes are not empty. -/
inductive Unoperated (free : String → Prop) : Expr → Prop
  | name {text : String} : text ≠ "" → free text → Unoperated free (.name text)
  | str {text : String} : free text → Unoperated free (.constant (.str text))
  | member {value : Expr} {attr : String} :
      Unoperated free value → attr ≠ "" → free attr → Unoperated free (.attribute value attr)
  | subscript {value index : Expr} :
      Unoperated free value → Unoperated free index → Unoperated free (.subscript value index)
  | call {func : Expr} {args : List Expr} :
      Unoperated free func → (∀ arg ∈ args, Unoperated free arg) →
        Unoperated free (.call func args [])
  | list {items : List Expr} : (∀ item ∈ items, Unoperated free item) → Unoperated free (.list items)
  | tuple {items : List Expr} :
      (∀ item ∈ items, Unoperated free item) → Unoperated free (.tuple items)
  | dict {pairs : List (Expr × Expr)} :
      (∀ pair ∈ pairs, Unoperated free pair.1) → (∀ pair ∈ pairs, Unoperated free pair.2) →
        Unoperated free (.dict (pairs.map fun pair => .keyed pair.1 pair.2))

/-! ### The reading machine -/

namespace Reading

/-- What a character means to the machine. -/
inductive Sign
  | letter
  | token (token : Token)
  | openCall
  | closeCall
  deriving DecidableEq

/-- The meaning of a character. -/
def sign (mark : Token → Char) (c : Char) : Sign :=
  if c = '(' then .openCall
  else if c = ')' then .closeCall
  else
    match Token.punctuation.find? fun token => mark token = c with
    | some token => .token token
    | none => .letter

/-- Brackets around items. -/
inductive Bracket
  | call (func : Expr)
  | list
  | tuple

namespace Bracket

/-- The token between two items. -/
def separator : Bracket → Token
  | call _ => .function .argumentSeparator
  | list => .literal .listJoin
  | tuple => .literal .tupleJoin

/-- The sign after the last item. -/
def closing : Bracket → Sign
  | call _ => .closeCall
  | list => .token (.literal .listEnd)
  | tuple => .token (.literal .tupleEnd)

/-- The character after the last item. -/
def closingChar (mark : Token → Char) : Bracket → Char
  | call _ => ')'
  | list => mark (.literal .listEnd)
  | tuple => mark (.literal .tupleEnd)

theorem separator_mem (bracket : Bracket) : bracket.separator ∈ Token.punctuation := by
  cases bracket <;> simp [separator, Token.punctuation]

/-- The expression of all items. -/
def close : Bracket → List Expr → Expr
  | call func, items => .call func items []
  | list, items => .list items
  | tuple, items => .tuple items

end Bracket

/-- A bracket that is open, with what was read in it. -/
inductive Frame
  | items (bracket : Bracket) (read : List Expr)
  | index (value : Expr)
  | key (read : List DictEntry)
  | entry (read : List DictEntry) (key : Expr)

/-- What is being read in the innermost bracket. -/
inductive Focus
  | start
  | word (text : List Char)
  | quoted (text : List Char)
  | member (value : Expr) (text : List Char)
  | whole (expr : Expr)

/-- What is being read, and the open brackets, innermost first. -/
structure State where
  /-- The part that is being read. -/
  focus : Focus
  /-- Open brackets. -/
  stack : List Frame

namespace Focus

/-- The expression read so far, if it may end here. -/
def value? : Focus → Option Expr
  | start | quoted _ => none
  | word text => some (.name (String.ofList text))
  | member value text => some (.attribute value (String.ofList text))
  | whole expr => some expr

/-- Reads a letter. -/
def letter? (c : Char) : Focus → Option Focus
  | start => some (word [c])
  | word text => some (word (text ++ [c]))
  | quoted text => some (quoted (text ++ [c]))
  | member value text => some (member value (text ++ [c]))
  | whole _ => none

/-- What is in focus after an expression was read. -/
def after : Expr → Focus
  | .name text => word text.toList
  | .attribute value attr => member value attr.toList
  | expr => whole expr

theorem value?_after (expr : Expr) : (after expr).value? = some expr := by
  cases expr <;> simp [after, value?]

end Focus

namespace Frame

/-- The expression that a sign closes before anything was read in its bracket. -/
def empty? (sign : Sign) : Frame → Option Expr
  | items bracket [] => if sign = bracket.closing then some (bracket.close []) else none
  | key [] => if sign = .token (.literal .dictEnd) then some (.dict []) else none
  | _ => none

/-- What a sign makes of a bracket in which an expression was read last. -/
def resume? (sign : Sign) (last : Expr) : Frame → Option (Focus × List Frame)
  | items bracket read =>
    if sign = .token bracket.separator then some (.start, [items bracket (read ++ [last])])
    else if sign = bracket.closing then some (.whole (bracket.close (read ++ [last])), [])
    else none
  | index value =>
    if sign = .token (.access .subscriptClose) then some (.whole (.subscript value last), [])
    else none
  | key read =>
    if sign = .token (.literal .dictAssign) then some (.start, [entry read last]) else none
  | entry read first =>
    if sign = .token (.literal .dictJoin) then
      some (.start, [key (read ++ [.keyed first last])])
    else if sign = .token (.literal .dictEnd) then
      some (.whole (.dict (read ++ [.keyed first last])), [])
    else none

end Frame

namespace State

/-- Reads a sign where an expression starts. -/
def begin? (stack : List Frame) (sign : Sign) : Option State :=
  match sign with
  | .token (.literal .stringBegin) => some ⟨.quoted [], stack⟩
  | .token (.literal .listBegin) => some ⟨.start, .items .list [] :: stack⟩
  | .token (.literal .tupleBegin) => some ⟨.start, .items .tuple [] :: stack⟩
  | .token (.literal .dictBegin) => some ⟨.start, .key [] :: stack⟩
  | sign =>
    match stack with
    | [] => none
    | frame :: rest => (frame.empty? sign).map fun expr => ⟨.whole expr, rest⟩

/-- Reads a sign after an expression. -/
def continue? (stack : List Frame) (last : Expr) (sign : Sign) : Option State :=
  match sign with
  | .token (.access .attribute) => some ⟨.member last [], stack⟩
  | .token (.access .subscriptOpen) => some ⟨.start, .index last :: stack⟩
  | .openCall => some ⟨.start, .items (.call last) [] :: stack⟩
  | sign =>
    match stack with
    | [] => none
    | frame :: rest =>
      (frame.resume? sign last).map fun (focus, frames) => ⟨focus, frames ++ rest⟩

/-- Reads one character. -/
def step (mark : Token → Char) (state : State) (c : Char) : Option State :=
  match sign mark c with
  | .letter => (state.focus.letter? c).map fun focus => { state with focus }
  | sign =>
    match state.focus with
    | .start => begin? state.stack sign
    | .quoted text =>
      if sign = .token (.literal .stringEnd) then
        some { state with focus := .whole (.constant (.str (String.ofList text))) }
      else none
    | focus => focus.value?.bind fun last => continue? state.stack last sign

/-- Reads characters in order. -/
def run (mark : Token → Char) (state : State) (text : List Char) : Option State :=
  text.foldlM (step mark) state

end State

/-- The expression that a whole text is read as. -/
def read? (mark : Token → Char) (text : String) : Option Expr := do
  let state ← State.run mark ⟨.start, []⟩ text.toList
  match state.stack with
  | [] => state.focus.value?
  | _ :: _ => none

/-! ### Reading rendered texts -/

section Signs

variable {table : TokenTable} {mark : Token → Char}

theorem sign_mark (punctuates : table.Punctuates mark) {token : Token}
    (shapes : token ∈ Token.punctuation) : sign mark (mark token) = .token token := by
  obtain ⟨noOpen, noClose⟩ := punctuates.noParenthesis token shapes
  have found : (Token.punctuation.find? fun other => mark other = mark token) = some token := by
    have exists_same : (Token.punctuation.find? fun other => mark other = mark token).isSome := by
      rw [List.find?_isSome]
      exact ⟨token, shapes, by simp⟩
    obtain ⟨other, found⟩ := Option.isSome_iff_exists.mp exists_same
    have same : mark other = mark token := by simpa using List.find?_some found
    rw [found, punctuates.distinct other (List.mem_of_find?_eq_some found) token shapes same]
  simp [sign, noOpen, noClose, found]

theorem sign_letter {text : String} (unmarked : Unmarked mark text) {c : Char}
    (member : c ∈ text.toList) : sign mark c = .letter := by
  obtain ⟨noOpen, noClose, noMark⟩ := unmarked c member
  have missing : (Token.punctuation.find? fun token => mark token = c) = none :=
    List.find?_eq_none.mpr fun token shapes => by simpa using (noMark token shapes).symm
  simp [sign, noOpen, noClose, missing]

theorem sign_closingChar (punctuates : table.Punctuates mark) (bracket : Bracket) :
    sign mark (bracket.closingChar mark) = bracket.closing := by
  cases bracket with
  | call func => rfl
  | list => exact sign_mark punctuates (by decide)
  | tuple => exact sign_mark punctuates (by decide)

end Signs

namespace State

variable {mark : Token → Char}

theorem run_cons (state : State) (c : Char) (rest : List Char) :
    run mark state (c :: rest) = (step mark state c).bind fun next => run mark next rest := rfl

/-- Letters are added to what is in focus; `focus` tells what that is by the letters read. -/
theorem run_letters (focus : List Char → Focus)
    (grows : ∀ text c, (focus text).letter? c = some (focus (text ++ [c])))
    {letters : List Char} (free : ∀ c ∈ letters, sign mark c = .letter) (text : List Char)
    (stack : List Frame) (rest : List Char) :
    run mark ⟨focus text, stack⟩ (letters ++ rest) =
      run mark ⟨focus (text ++ letters), stack⟩ rest := by
  induction letters generalizing text with
  | nil => simp
  | cons c more ih =>
      have stepped : step mark ⟨focus text, stack⟩ c = some ⟨focus (text ++ [c]), stack⟩ := by
        simp [step, free c (List.mem_cons_self ..), grows]
      rw [List.cons_append, run_cons, stepped, Option.bind_some,
        ih (fun other member => free other (List.mem_cons_of_mem c member))]
      simp

/-- A sign after an expression goes to what holds the expression. -/
theorem run_continue {c : Char} {meaning : Sign} (means : sign mark c = meaning)
    (special : meaning ≠ .letter) (last : Expr) (stack : List Frame) (rest : List Char) :
    run mark ⟨.after last, stack⟩ (c :: rest) =
      (continue? stack last meaning).bind fun next => run mark next rest := by
  rw [run_cons]
  congr 1
  subst means
  have value := Focus.value?_after last
  unfold step
  split
  next letter => exact absurd letter special
  next =>
    cases shape : Focus.after last with
    | start | quoted text => simp [shape, Focus.value?] at value
    | word text | member receiver text | whole expr =>
        rw [shape] at value
        simp only [value, Option.bind_some]

theorem continue?_separator (bracket : Bracket) (read : List Expr) (stack : List Frame)
    (last : Expr) :
    continue? (.items bracket read :: stack) last (.token bracket.separator) =
      some ⟨.start, .items bracket (read ++ [last]) :: stack⟩ := by
  cases bracket <;> simp [continue?, Bracket.separator, Frame.resume?]

theorem continue?_closing (bracket : Bracket) (read : List Expr) (stack : List Frame)
    (last : Expr) :
    continue? (.items bracket read :: stack) last bracket.closing =
      some ⟨.whole (bracket.close (read ++ [last])), stack⟩ := by
  cases bracket <;>
    simp [continue?, Bracket.closing, Bracket.separator, Frame.resume?]

theorem begin?_closing (bracket : Bracket) (stack : List Frame) :
    begin? (.items bracket [] :: stack) bracket.closing =
      some ⟨.whole (bracket.close []), stack⟩ := by
  cases bracket <;> simp [begin?, Bracket.closing, Frame.empty?]

theorem run_begin {c : Char} {meaning : Sign} (means : sign mark c = meaning)
    (special : meaning ≠ .letter) (stack : List Frame) (rest : List Char) :
    run mark ⟨.start, stack⟩ (c :: rest) =
      (begin? stack meaning).bind fun next => run mark next rest := by
  rw [run_cons]
  congr 1
  subst means
  unfold step
  split
  next letter => exact absurd letter special
  next => rfl

end State

/-- An expression has a text, and wherever an expression may start the machine reads that text as
this expression and nothing more. -/
def Reads (table : TokenTable) (mark : Token → Char) (expr : Expr) (text : String) : Prop :=
  Strict.expr? table expr = some text ∧ ∀ stack rest,
    State.run mark ⟨.start, stack⟩ (text.toList ++ rest) = State.run mark ⟨.after expr, stack⟩ rest

section Rendered

variable {table : TokenTable} {mark : Token → Char}

theorem join?_eq (punctuates : table.Punctuates mark) (separator : Token)
    (shapes : separator ∈ Token.punctuation) (texts : List String) :
    Strict.join? table separator texts =
      some ((String.singleton (mark separator)).intercalate texts) := by
  match texts with
  | [] => rfl
  | [text] => simp [Strict.join?, String.join]
  | first :: second :: more =>
      have several : ¬ (first :: second :: more).length < 2 := by simp
      rw [Strict.join?, if_neg several, punctuates.spelled separator shapes, Option.map_some]

theorem exprs?_of_reads {exprs : List Expr} {texts : List String}
    (all : List.Forall₂ (Reads table mark) exprs texts) : Strict.exprs? table exprs = some texts := by
  induction all with
  | nil => rfl
  | cons first _ more => simp [Strict.exprs?, first.1, more]

/-- Items in a bracket are read one by one, each handed over by the separator after it and the last
one by the end of the bracket. -/
theorem run_items (punctuates : table.Punctuates mark) (bracket : Bracket) {items : List Expr}
    {texts : List String} (all : List.Forall₂ (Reads table mark) items texts) (stack : List Frame)
    (rest : List Char) :
    State.run mark ⟨.start, .items bracket [] :: stack⟩
        (((String.singleton (mark bracket.separator)).intercalate texts).toList ++
          bracket.closingChar mark :: rest) =
      State.run mark ⟨.whole (bracket.close items), stack⟩ rest := by
  have closes := sign_closingChar punctuates bracket
  have closing : bracket.closing ≠ .letter := by cases bracket <;> simp [Bracket.closing]
  have separates : sign mark (mark bracket.separator) = .token bracket.separator :=
    sign_mark punctuates bracket.separator_mem
  -- what was read before does not matter once there is an item to read
  have several (first : Expr) (text : String) (read : Reads table mark first text)
      (items : List Expr) (texts : List String)
      (all : List.Forall₂ (Reads table mark) items texts) (before : List Expr) :
      State.run mark ⟨.start, .items bracket before :: stack⟩
          (((String.singleton (mark bracket.separator)).intercalate (text :: texts)).toList ++
            bracket.closingChar mark :: rest) =
        State.run mark ⟨.whole (bracket.close (before ++ first :: items)), stack⟩ rest := by
    induction all generalizing first text before with
    | nil =>
        rw [String.intercalate_singleton, read.2, State.run_continue closes closing,
          State.continue?_closing, Option.bind_some]
    | @cons second next items texts after _ ih =>
        rw [String.intercalate_cons_cons, String.toList_append, String.toList_append,
          List.append_assoc, List.append_assoc, read.2, String.toList_singleton,
          List.singleton_append, State.run_continue separates (by simp),
          State.continue?_separator, Option.bind_some, ih second next after]
        simp
  cases all with
  | nil =>
      rw [String.intercalate_nil, String.toList_empty, List.nil_append,
        State.run_begin closes closing, State.begin?_closing, Option.bind_some]
  | cons first more => exact several _ _ first _ _ more []

/-- An entry has a text if its key and its value are read. -/
def ReadsEntry (table : TokenTable) (mark : Token → Char) (pair : Expr × Expr) (text : String) :
    Prop :=
  ∃ key value, Reads table mark pair.1 key ∧ Reads table mark pair.2 value ∧
    text = key ++ String.singleton (mark (.literal .dictAssign)) ++ value

theorem entries?_of_reads (punctuates : table.Punctuates mark) {pairs : List (Expr × Expr)}
    {texts : List String} (all : List.Forall₂ (ReadsEntry table mark) pairs texts) :
    Strict.entries? table (pairs.map fun pair => .keyed pair.1 pair.2) = some texts := by
  have assign := punctuates.spelled (.literal .dictAssign) (by decide)
  induction all with
  | nil => rfl
  | cons entry _ more =>
      obtain ⟨key, value, first, second, rfl⟩ := entry
      simp [Strict.entries?, first.1, second.1, assign, more]

/-- An entry leaves its value in focus, with the key kept in the bracket. -/
private theorem run_entry (punctuates : table.Punctuates mark) {pair : Expr × Expr} {text : String}
    (entry : ReadsEntry table mark pair text) (before : List DictEntry) (stack : List Frame)
    (after : List Char) :
    State.run mark ⟨.start, .key before :: stack⟩ (text.toList ++ after) =
      State.run mark ⟨.after pair.2, .entry before pair.1 :: stack⟩ after := by
  have assigns : sign mark (mark (.literal .dictAssign)) = .token (.literal .dictAssign) :=
    sign_mark punctuates (by decide)
  obtain ⟨key, value, first, second, rfl⟩ := entry
  rw [String.toList_append, String.toList_append, List.append_assoc, List.append_assoc, first.2,
    String.toList_singleton, List.singleton_append, State.run_continue assigns (by simp)]
  simp only [State.continue?, Frame.resume?, if_true, Option.map_some, Option.bind_some,
    List.singleton_append]
  exact second.2 _ _

/-- Entries are read key by key and value by value. -/
theorem run_entries (punctuates : table.Punctuates mark) {pairs : List (Expr × Expr)}
    {texts : List String} (all : List.Forall₂ (ReadsEntry table mark) pairs texts)
    (stack : List Frame) (rest : List Char) :
    State.run mark ⟨.start, .key [] :: stack⟩
        (((String.singleton (mark (.literal .dictJoin))).intercalate texts).toList ++
          mark (.literal .dictEnd) :: rest) =
      State.run mark
        ⟨.whole (.dict (pairs.map fun pair => .keyed pair.1 pair.2)), stack⟩ rest := by
  have closes : sign mark (mark (.literal .dictEnd)) = .token (.literal .dictEnd) :=
    sign_mark punctuates (by decide)
  have separates : sign mark (mark (.literal .dictJoin)) = .token (.literal .dictJoin) :=
    sign_mark punctuates (by decide)
  have several (pair : Expr × Expr) (text : String) (entry : ReadsEntry table mark pair text)
      (pairs : List (Expr × Expr)) (texts : List String)
      (all : List.Forall₂ (ReadsEntry table mark) pairs texts) (before : List DictEntry) :
      State.run mark ⟨.start, .key before :: stack⟩
          (((String.singleton (mark (.literal .dictJoin))).intercalate (text :: texts)).toList ++
            mark (.literal .dictEnd) :: rest) =
        State.run mark ⟨.whole (.dict (before ++
          (pair :: pairs).map fun pair => .keyed pair.1 pair.2)), stack⟩ rest := by
    induction all generalizing pair text before with
    | nil =>
        rw [String.intercalate_singleton, run_entry punctuates entry,
          State.run_continue closes (by simp)]
        simp [State.continue?, Frame.resume?]
    | @cons second next pairs texts after _ ih =>
        rw [String.intercalate_cons_cons, String.toList_append, String.toList_append,
          List.append_assoc, List.append_assoc, run_entry punctuates entry, String.toList_singleton,
          List.singleton_append, State.run_continue separates (by simp)]
        simp only [State.continue?, Frame.resume?, if_true, Option.map_some, Option.bind_some,
          List.singleton_append]
        rw [ih second next after]
        simp
  cases all with
  | nil =>
      rw [String.intercalate_nil, String.toList_empty, List.nil_append,
        State.run_begin closes (by simp)]
      simp [State.begin?, Frame.empty?]
  | cons first more => exact several _ _ first _ _ more []

theorem exists_forall₂ {α : Type} {holds : α → String → Prop} {items : List α}
    (each : ∀ item ∈ items, ∃ text, holds item text) :
    ∃ texts, List.Forall₂ holds items texts := by
  induction items with
  | nil => exact ⟨[], .nil⟩
  | cons item rest ih =>
      obtain ⟨text, held⟩ := each item (List.mem_cons_self ..)
      obtain ⟨texts, all⟩ := ih fun other member => each other (List.mem_cons_of_mem item member)
      exact ⟨text :: texts, .cons held all⟩

/-- A word from where an expression starts: the first letter makes it a word. -/
def wordFocus : List Char → Focus
  | [] => .start
  | text => .word text

theorem reads_name {text : String} (nonempty : text ≠ "") (unmarked : Unmarked mark text) :
    Reads table mark (.name text) text := by
  refine ⟨rfl, fun stack rest => ?_⟩
  have grows (text : List Char) (c : Char) :
      (wordFocus text).letter? c = some (wordFocus (text ++ [c])) := by
    cases text <;> rfl
  have read := State.run_letters wordFocus grows (fun c member => sign_letter unmarked member) []
    stack rest
  obtain ⟨c, others, spelled⟩ : ∃ c others, text.toList = c :: others :=
    List.exists_cons_of_ne_nil (by simpa using nonempty)
  simpa [wordFocus, Focus.after, spelled] using read

theorem reads_str (punctuates : table.Punctuates mark) {text : String}
    (unmarked : Unmarked mark text) :
    Reads table mark (.constant (.str text))
      (String.singleton (mark (.literal .stringBegin)) ++ text ++
        String.singleton (mark (.literal .stringEnd))) := by
  have opens := punctuates.spelled (.literal .stringBegin) (by decide)
  have closes := punctuates.spelled (.literal .stringEnd) (by decide)
  have begins : sign mark (mark (.literal .stringBegin)) = .token (.literal .stringBegin) :=
    sign_mark punctuates (by decide)
  have ends : sign mark (mark (.literal .stringEnd)) = .token (.literal .stringEnd) :=
    sign_mark punctuates (by decide)
  refine ⟨by simp [Strict.expr?, Render.constantText, opens, closes], fun stack rest => ?_⟩
  have letters := State.run_letters .quoted (fun _ _ => rfl)
    (fun c member => sign_letter unmarked member) [] stack
  simp only [String.toList_append, String.toList_singleton, List.append_assoc, List.cons_append,
    List.nil_append]
  rw [State.run_begin begins (by simp)]
  simp only [State.begin?, Option.bind_some]
  rw [letters, State.run_cons]
  simp [State.step, ends, Focus.after]

theorem reads_attribute (punctuates : table.Punctuates mark) {value : Expr} {receiver attr : String}
    (read : Reads table mark value receiver) (unmarked : Unmarked mark attr) :
    Reads table mark (.attribute value attr)
      (receiver ++ String.singleton (mark (.access .attribute)) ++ attr) := by
  have dot := punctuates.spelled (.access .attribute) (by decide)
  have means : sign mark (mark (.access .attribute)) = .token (.access .attribute) :=
    sign_mark punctuates (by decide)
  refine ⟨by simp [Strict.expr?, read.1, dot], fun stack rest => ?_⟩
  have letters := State.run_letters (.member value) (fun _ _ => rfl)
    (fun c member => sign_letter unmarked member) [] stack rest
  simp only [String.toList_append, String.toList_singleton, List.append_assoc, List.cons_append,
    List.nil_append]
  rw [read.2, State.run_continue means (by simp)]
  simp only [State.continue?, Option.bind_some]
  simpa [Focus.after] using letters

theorem reads_subscript (punctuates : table.Punctuates mark) {value index : Expr}
    {receiver key : String} (read : Reads table mark value receiver)
    (inside : Reads table mark index key) :
    Reads table mark (.subscript value index)
      (receiver ++ (String.singleton (mark (.access .subscriptOpen)) ++ key ++
        String.singleton (mark (.access .subscriptClose)))) := by
  have opens := punctuates.spelled (.access .subscriptOpen) (by decide)
  have closes := punctuates.spelled (.access .subscriptClose) (by decide)
  have begins : sign mark (mark (.access .subscriptOpen)) = .token (.access .subscriptOpen) :=
    sign_mark punctuates (by decide)
  have ends : sign mark (mark (.access .subscriptClose)) = .token (.access .subscriptClose) :=
    sign_mark punctuates (by decide)
  refine ⟨by simp [Strict.expr?, Strict.enclose?, read.1, inside.1, opens, closes],
    fun stack rest => ?_⟩
  simp only [String.toList_append, String.toList_singleton, List.append_assoc, List.cons_append,
    List.nil_append]
  rw [read.2, State.run_continue begins (by simp)]
  simp only [State.continue?, Option.bind_some]
  rw [inside.2, State.run_continue ends (by simp)]
  simp [State.continue?, Frame.resume?, Focus.after]

theorem reads_call (punctuates : table.Punctuates mark) {func : Expr} {callee : String}
    {args : List Expr} {texts : List String} (read : Reads table mark func callee)
    (all : List.Forall₂ (Reads table mark) args texts) :
    Reads table mark (.call func args [])
      (callee ++ "(" ++ (String.singleton (mark (.function .argumentSeparator))).intercalate texts ++
        ")") := by
  have joined := join?_eq punctuates (.function .argumentSeparator) (by decide) texts
  refine ⟨by simp [Strict.expr?, read.1, exprs?_of_reads all, joined], fun stack rest => ?_⟩
  have opening : sign mark '(' = .openCall := rfl
  have opened : "(".toList = ['('] := rfl
  have closed : ")".toList = [')'] := rfl
  simp only [String.toList_append, opened, closed, List.append_assoc, List.cons_append,
    List.nil_append]
  rw [read.2, State.run_continue opening (by simp)]
  simp only [State.continue?, Option.bind_some]
  exact run_items punctuates (.call func) all stack rest

/-- What is read in a bracket is read with the marks around it. -/
theorem run_enclosed (punctuates : table.Punctuates mark) {opening closing : Token}
    (shapes : opening ∈ Token.punctuation) {frame : Frame}
    (opens : ∀ stack, State.begin? stack (.token opening) = some ⟨.start, frame :: stack⟩)
    {expr : Expr} {inner : String}
    (inside : ∀ stack rest,
      State.run mark ⟨.start, frame :: stack⟩ (inner.toList ++ mark closing :: rest) =
        State.run mark ⟨.after expr, stack⟩ rest) (stack : List Frame) (rest : List Char) :
    State.run mark ⟨.start, stack⟩ ((String.singleton (mark opening) ++ inner ++
        String.singleton (mark closing)).toList ++ rest) =
      State.run mark ⟨.after expr, stack⟩ rest := by
  simp only [String.toList_append, String.toList_singleton, List.append_assoc, List.cons_append,
    List.nil_append]
  rw [State.run_begin (sign_mark punctuates shapes) (by simp), opens, Option.bind_some]
  exact inside stack rest

theorem reads_list (punctuates : table.Punctuates mark) {items : List Expr} {texts : List String}
    (all : List.Forall₂ (Reads table mark) items texts) :
    Reads table mark (.list items)
      (String.singleton (mark (.literal .listBegin)) ++
        (String.singleton (mark (.literal .listJoin))).intercalate texts ++
          String.singleton (mark (.literal .listEnd))) := by
  have opens := punctuates.spelled (.literal .listBegin) (by decide)
  have closes := punctuates.spelled (.literal .listEnd) (by decide)
  have joined := join?_eq punctuates (.literal .listJoin) (by decide) texts
  exact ⟨by simp [Strict.expr?, Strict.enclose?, exprs?_of_reads all, joined, opens, closes],
    run_enclosed punctuates (by decide) (fun _ => rfl) (run_items punctuates .list all)⟩

theorem reads_tuple (punctuates : table.Punctuates mark) {items : List Expr} {texts : List String}
    (all : List.Forall₂ (Reads table mark) items texts) :
    Reads table mark (.tuple items)
      (String.singleton (mark (.literal .tupleBegin)) ++
        (String.singleton (mark (.literal .tupleJoin))).intercalate texts ++
          String.singleton (mark (.literal .tupleEnd))) := by
  have opens := punctuates.spelled (.literal .tupleBegin) (by decide)
  have closes := punctuates.spelled (.literal .tupleEnd) (by decide)
  have joined := join?_eq punctuates (.literal .tupleJoin) (by decide) texts
  exact ⟨by simp [Strict.expr?, Strict.enclose?, exprs?_of_reads all, joined, opens, closes],
    run_enclosed punctuates (by decide) (fun _ => rfl) (run_items punctuates .tuple all)⟩

theorem reads_dict (punctuates : table.Punctuates mark) {pairs : List (Expr × Expr)}
    {texts : List String} (all : List.Forall₂ (ReadsEntry table mark) pairs texts) :
    Reads table mark (.dict (pairs.map fun pair => .keyed pair.1 pair.2))
      (String.singleton (mark (.literal .dictBegin)) ++
        (String.singleton (mark (.literal .dictJoin))).intercalate texts ++
          String.singleton (mark (.literal .dictEnd))) := by
  have opens := punctuates.spelled (.literal .dictBegin) (by decide)
  have closes := punctuates.spelled (.literal .dictEnd) (by decide)
  have joined := join?_eq punctuates (.literal .dictJoin) (by decide) texts
  have entries := entries?_of_reads punctuates all
  exact ⟨by simp [Strict.expr?, Strict.enclose?, entries, joined, opens, closes],
    run_enclosed punctuates (by decide) (fun _ => rfl) (run_entries punctuates all)⟩

/-- Every expression without operators is rendered, and read back from its text. -/
theorem reads_of_unoperated (punctuates : table.Punctuates mark) {expr : Expr}
    (unoperated : Unoperated (Unmarked mark) expr) : ∃ text, Reads table mark expr text := by
  induction unoperated with
  | name nonempty unmarked => exact ⟨_, reads_name nonempty unmarked⟩
  | str unmarked => exact ⟨_, reads_str punctuates unmarked⟩
  | member _ _ unmarked value =>
      obtain ⟨receiver, read⟩ := value
      exact ⟨_, reads_attribute punctuates read unmarked⟩
  | subscript _ _ value index =>
      obtain ⟨receiver, read⟩ := value
      obtain ⟨key, inside⟩ := index
      exact ⟨_, reads_subscript punctuates read inside⟩
  | call _ _ func args =>
      obtain ⟨callee, read⟩ := func
      obtain ⟨texts, all⟩ := exists_forall₂ args
      exact ⟨_, reads_call punctuates read all⟩
  | list _ items =>
      obtain ⟨texts, all⟩ := exists_forall₂ items
      exact ⟨_, reads_list punctuates all⟩
  | tuple _ items =>
      obtain ⟨texts, all⟩ := exists_forall₂ items
      exact ⟨_, reads_tuple punctuates all⟩
  | @dict pairs _ _ keys values =>
      have entries : ∀ pair ∈ pairs, ∃ text, ReadsEntry table mark pair text := by
        intro pair member
        obtain ⟨key, first⟩ := keys pair member
        obtain ⟨value, second⟩ := values pair member
        exact ⟨_, key, value, first, second, rfl⟩
      obtain ⟨texts, all⟩ := exists_forall₂ entries
      exact ⟨_, reads_dict punctuates all⟩

theorem read?_of_reads {expr : Expr} {text : String} (read : Reads table mark expr text) :
    read? mark text = some expr := by
  have whole := read.2 [] []
  rw [List.append_nil] at whole
  rw [read?, whole]
  exact Focus.value?_after expr

end Rendered

end Reading

/-- Expressions without operators are rendered with nothing recorded, and no two of them to one text,
if each token that shapes them is a character of its own. -/
theorem respell_injective {table : TokenTable} {mark : Token → Char}
    (punctuates : table.Punctuates mark) {first second : Expr}
    (plainFirst : Unoperated (Unmarked mark) first)
    (plainSecond : Unoperated (Unmarked mark) second) :
    (∃ text, respell table (.expr first) = (.rendered text, [])) ∧
      (∃ text, respell table (.expr second) = (.rendered text, [])) ∧
      ((respell table (.expr first)).1 = (respell table (.expr second)).1 → first = second) := by
  obtain ⟨one, readFirst⟩ := Reading.reads_of_unoperated punctuates plainFirst
  obtain ⟨two, readSecond⟩ := Reading.reads_of_unoperated punctuates plainSecond
  have renderedFirst : respell table (.expr first) = (.rendered one, []) :=
    respell_of_strict readFirst.1
  have renderedSecond : respell table (.expr second) = (.rendered two, []) :=
    respell_of_strict readSecond.1
  refine ⟨⟨one, renderedFirst⟩, ⟨two, renderedSecond⟩, fun same => ?_⟩
  rw [renderedFirst, renderedSecond] at same
  obtain rfl : one = two := Rendering.rendered.inj same
  have found := Reading.read?_of_reads readFirst
  rw [Reading.read?_of_reads readSecond] at found
  exact (Option.some.inj found).symm

/-- A character for each token that shapes expressions. -/
def plainMark : Token → Char
  | .access .attribute => '.'
  | .access .subscriptOpen => '['
  | .access .subscriptClose => ']'
  | .function .argumentSeparator => ','
  | .literal .listBegin => '<'
  | .literal .listJoin => ';'
  | .literal .listEnd => '>'
  | .literal .tupleBegin => '/'
  | .literal .tupleJoin => '|'
  | .literal .tupleEnd => '~'
  | .literal .dictBegin => '^'
  | .literal .dictJoin => '&'
  | .literal .dictEnd => '$'
  | .literal .dictAssign => ':'
  | .literal .stringBegin => '!'
  | .literal .stringEnd => '?'
  | _ => '*'

/-- Each token is spelled by its character. -/
def plainMarks : TokenTable :=
  .ofList (Token.punctuation.map fun token => (token, String.singleton (plainMark token)))

theorem plainMarks_punctuates : plainMarks.Punctuates plainMark :=
  ⟨by decide +kernel, by decide +kernel, by decide +kernel⟩

/-- A list without items and a list of an empty string are rendered differently. -/
theorem respell_injective_empty_items :
    plainMarks.Punctuates plainMark ∧ Unoperated (Unmarked plainMark) (.list []) ∧
      Unoperated (Unmarked plainMark) (.list [.constant (.str "")]) ∧
      respell plainMarks (.expr (.list [])) = (.rendered "<>", []) ∧
      ((respell plainMarks (.expr (.list []))).1 =
        (respell plainMarks (.expr (.list [.constant (.str "")]))).1 →
          Expr.list [] = .list [.constant (.str "")]) := by
  have none : Unoperated (Unmarked plainMark) (.list []) := .list (by simp)
  have one : Unoperated (Unmarked plainMark) (.list [.constant (.str "")]) :=
    .list (by simpa using .str (by simp [Unmarked]))
  exact ⟨plainMarks_punctuates, none, one, by cbv,
    (respell_injective plainMarks_punctuates none one).2.2⟩

end Respell
