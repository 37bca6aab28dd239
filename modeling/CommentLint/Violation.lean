/-
  Violations and where they are.

  Key definitions include:
    * `Severity`
    * `Location`
    * `Violation`
    * `ScanResult`
-/

namespace CommentLint

------------------------------------------------------------
-- Severities
------------------------------------------------------------

/-
  How bad a violation is.  Violations from elsewhere may carry
  labels that have no rank.
-/
inductive Severity where
| warning
| error
| other (label : String)
deriving DecidableEq, Repr

namespace Severity

/- The label of a severity. -/
def label : Severity → String
  | .warning => "warning"
  | .error => "error"
  | .other label => label

/- The severity of a label. -/
def ofLabel (label : String) : Severity :=
  match label with
  | "warning" => .warning
  | "error" => .error
  | label => .other label

/- The place of a severity in the order of severities. -/
def rank? : Severity → Option Nat
  | .warning => some 1
  | .error => some 2
  | .other _ => none

/- The labels that have a rank, the least of them first. -/
def labels : List String :=
  ["warning", "error"]

/- The labels that have a rank, as messages list them. -/
def labelList : String :=
  String.intercalate ", " labels

end Severity

------------------------------------------------------------
-- Violations
------------------------------------------------------------

/- A byte of a file, with its line and column counted from one. -/
structure Location where
  path : String
  offset : Int
  line : Int
  column : Int
deriving DecidableEq, Repr

/- A breach of a rule at a location. -/
structure Violation where
  ruleId : String
  title : String
  severity : Severity
  message : String
  location : Location
deriving DecidableEq, Repr

/- What a scan found, and in how many files it looked. -/
structure ScanResult where
  violations : List Violation
  filesScanned : Int
deriving DecidableEq, Repr

namespace ScanResult

/- How many violations have a severity. -/
def count
    (r : ScanResult)
    (s : Severity) : Nat :=
  r.violations.countP fun v => v.severity == s

end ScanResult

end CommentLint
