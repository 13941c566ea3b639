import Respell.Diagnostic
import Respell.Token.Table

/-!
Drafts: the outcome of rendering one node, with the diagnostics recorded on the way. A node that
cannot be rendered is a fault; its parent reports it and goes on with empty text.
-/

set_option autoImplicit false

namespace Respell

/-- Outcome of rendering one node. -/
inductive Rendering
  | rendered (text : String)
  | unsupported (kind : DiagnosticKind)
  deriving DecidableEq

namespace Rendering

/-- Rendered text; empty if there is none. -/
def text : Rendering → String
  | rendered text => text
  | unsupported _ => ""

/-- Whether there is a rendered text. -/
def isRendered : Rendering → Bool
  | rendered _ => true
  | unsupported _ => false

end Rendering

namespace Render

/-- Why a node cannot be rendered. -/
structure Fault where
  /-- What it is about. -/
  kind : DiagnosticKind
  /-- What it says. -/
  message : String
  deriving DecidableEq

/-- A result or a fault, with what was recorded until then. -/
structure Draft (α : Type) where
  /-- The result. -/
  result : Except Fault α
  /-- Records in order. -/
  records : Diagnostics

namespace Draft

variable {α β : Type}

/-- A result without records. -/
def pure (value : α) : Draft α := ⟨.ok value, []⟩

/-- A fault without records. -/
def fail (fault : Fault) : Draft α := ⟨.error fault, []⟩

/-- Goes on with the result, and keeps the records of both. -/
def bind (draft : Draft α) (next : α → Draft β) : Draft β :=
  match draft.result with
  | .ok value => ⟨(next value).result, draft.records ++ (next value).records⟩
  | .error fault => ⟨.error fault, draft.records⟩

instance : Monad Draft where
  pure := pure
  bind := bind

/-- Makes one record. -/
def record (diagnostic : Diagnostic) : Draft Unit := ⟨.ok (), [diagnostic]⟩

/-- The outcome of a draft, its fault reported after all else. -/
def settle (draft : Draft String) : Rendering × Diagnostics :=
  match draft.result with
  | .ok text => (.rendered text, draft.records)
  | .error fault =>
    (.unsupported fault.kind, draft.records ++ [.report fault.kind fault.message])

/-- The text of a draft, empty if it is a fault, which is reported. -/
def settled (draft : Draft String) : Draft String := ⟨.ok draft.settle.1.text, draft.settle.2⟩

end Draft

/-- A construct without a rendering. -/
def unsupportedConstruct (kindName : String) : Fault :=
  ⟨.unsupportedConstruct, "no translation for " ++ kindName ++ " nodes"⟩

/-- The text of a token that a node cannot do without. -/
def require (table : TokenTable) (token : Token) : Draft String :=
  match table.get? token with
  | some text => .pure text
  | none => .fail ⟨.missingToken, "token " ++ token.qualified ++ " is not configured"⟩

/-- The text of an operator. -/
def requireOperator (table : TokenTable) (operator : OperatorToken) : Draft String :=
  match table.get? (.operator operator) with
  | some text => .pure text
  | none =>
    .fail ⟨.unsupportedOperator,
      "operator " ++ (Token.operator operator).qualified ++ " is not configured"⟩

/-- Texts with a token between them, which is needed only from two texts on. -/
def join (table : TokenTable) (separator : Token) : List String → Draft String
  | [] => .pure ""
  | [text] => .pure text
  | texts => do
    let between ← require table separator
    return between.intercalate texts

end Render

end Respell
