import CommentLint.Source

/-
  Lint rules.

  A rule describes itself and finds the offsets that break it.
  A span whose bytes do not give text is passed over, and the
  rule says so.

  Key definitions include:
    * `RuleInfo`
    * `Finding`
    * `Rule`
    * `Rule.violations`
    * `lint`
-/

namespace CommentLint

------------------------------------------------------------
-- Rules
------------------------------------------------------------

/- What a rule says about itself. -/
structure RuleInfo where
  identifier : String
  name : String
  description : String
  kind : String := "lint"
  nonTriggering : List String := []
  triggering : List String := []
deriving DecidableEq, Repr

/- An offset that breaks a rule, or a span without text. -/
inductive Finding where
| flagged (offset : Int)
| unresolved (span : Span)
deriving DecidableEq, Repr

/- A rule at a severity. -/
structure Rule where
  info : RuleInfo
  severity : Severity
  findings : SourceFile → List Finding

namespace Rule

/- The violation of a rule at an offset. -/
def violationAt
    (r : Rule)
    (f : SourceFile)
    (offset : Int) : Violation :=
  { ruleId := r.info.identifier
    title := r.info.name
    severity := r.severity
    message := r.info.description
    location := f.location offset }

/- The violations of a rule in a file, in the order found. -/
def violations
    (r : Rule)
    (f : SourceFile) : List Violation :=
  (r.findings f).filterMap fun
    | .flagged offset => some (r.violationAt f offset)
    | .unresolved _ => none

/- The spans of a file that a rule passed over. -/
def unresolved
    (r : Rule)
    (f : SourceFile) : List Span :=
  (r.findings f).filterMap fun
    | .flagged _ => none
    | .unresolved span => some span

end Rule

------------------------------------------------------------
-- Linting
------------------------------------------------------------

/- The order of violations in one file: by offset, then by rule. -/
def Violation.leInFile (v w : Violation) : Bool :=
  decide (v.location.offset < w.location.offset) ||
    (v.location.offset == w.location.offset &&
      decide (v.ruleId ≤ w.ruleId))

/- The violations of all rules in a file, in file order. -/
def lint
    (rules : List Rule)
    (f : SourceFile) : List Violation :=
  (rules.flatMap fun r => r.violations f).mergeSort
    Violation.leInFile

end CommentLint
