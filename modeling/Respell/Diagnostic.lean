/-!
Diagnostics: what could not be carried over, and how serious it is. A run is clean if nothing above
the debug level was recorded.
-/

set_option autoImplicit false

namespace Respell

/-- How serious a diagnostic is. -/
inductive Level
  | debug
  | warning
  | error
  deriving DecidableEq

/-- Name of a level. -/
def Level.name : Level → String
  | .debug => "debug"
  | .warning => "warning"
  | .error => "error"

/-- What a diagnostic is about. -/
inductive DiagnosticKind
  | unsupportedConstruct
  | unsupportedOperator
  | unsupportedComparisonShape
  | malformedLiteral
  | extractionFailure
  | missingCollaborator
  | missingToken
  | skippedModule
  deriving DecidableEq

namespace DiagnosticKind

/-- Every kind, in order. -/
def all : List DiagnosticKind :=
  [unsupportedConstruct, unsupportedOperator, unsupportedComparisonShape, malformedLiteral,
   extractionFailure, missingCollaborator, missingToken, skippedModule]

/-- Name of a kind. -/
def name : DiagnosticKind → String
  | unsupportedConstruct => "UnsupportedConstruct"
  | unsupportedOperator => "UnsupportedOperator"
  | unsupportedComparisonShape => "UnsupportedComparisonShape"
  | malformedLiteral => "MalformedLiteral"
  | extractionFailure => "ExtractionFailure"
  | missingCollaborator => "MissingCollaborator"
  | missingToken => "MissingToken"
  | skippedModule => "SkippedModule"

/-- Level of a kind that is reported without one. -/
def defaultLevel : DiagnosticKind → Level
  | skippedModule => .warning
  | _ => .error

end DiagnosticKind

/-- One record. -/
structure Diagnostic where
  /-- How serious it is. -/
  level : Level
  /-- What it is about. -/
  kind : DiagnosticKind
  /-- What it says. -/
  message : String
  deriving DecidableEq

namespace Diagnostic

/-- A record at the level of its kind. -/
def report (kind : DiagnosticKind) (message : String) : Diagnostic :=
  ⟨kind.defaultLevel, kind, message⟩

/-- Text of a record. -/
def text (record : Diagnostic) : String :=
  record.level.name ++ ": " ++ record.kind.name ++ ": " ++ record.message

end Diagnostic

/-- Records in the order they were made. -/
abbrev Diagnostics := List Diagnostic

namespace Diagnostics

/-- Number of records of a kind. -/
def count (records : Diagnostics) (kind : DiagnosticKind) : Nat :=
  (records.filter fun record => record.kind = kind).length

/-- Number of records at a level. -/
def countAt (records : Diagnostics) (level : Level) : Nat :=
  (records.filter fun record => record.level = level).length

/-- Whether there is no warning and no error. -/
def isClean (records : Diagnostics) : Bool :=
  records.all fun record => record.level = .debug

end Diagnostics

end Respell
