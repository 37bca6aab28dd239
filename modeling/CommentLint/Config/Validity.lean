import CommentLint.Config.Basic

/-
  Validity of a configuration.

  A configuration is valid when it has no problems.  Looking
  for them fails when a setting is of a kind that cannot be
  compared with what is allowed.

  Key definitions include:
    * `ConfigProblem`
    * `Config.problems`
-/

namespace CommentLint

/- What is wrong with a configuration. -/
inductive ConfigProblem where
| unknownRuleSeverity (id : String)
| badSeverity (id : String)
| unknownListedRule (id : String)
| noEnabledRules
| tooFewJobs
| badFailOn
| negativeLimit (name : String)
| badFormat
deriving DecidableEq, Repr

/- The formats of reports. -/
def reportFormats : List String :=
  ["text", "json", "sarif"]

namespace ConfigProblem

/- The message of a problem. -/
def message : ConfigProblem → String
  | .unknownRuleSeverity id =>
      "unknown rule '" ++ id ++ "' in rules table"
  | .badSeverity id =>
      "severity for '" ++ id ++ "' must be one of: " ++
        Severity.labelList
  | .unknownListedRule id =>
      "unknown rule '" ++ id ++
        "' in enabled_rules/disabled_rules"
  | .noEnabledRules => "enabled_rules must be non-empty when set"
  | .tooFewJobs => "jobs must be >= 1"
  | .badFailOn =>
      "fail_on must be one of: " ++ Severity.labelList
  | .negativeLimit name => name ++ " must be >= 0"
  | .badFormat =>
      "report format must be one of: " ++
        String.intercalate ", " reportFormats

end ConfigProblem

namespace Config

open ConfigProblem

/- A problem when a condition holds. -/
def problemIf
    (condition : Bool)
    (p : ConfigProblem) : List ConfigProblem :=
  if condition then [p] else []

/- The problems of one rule's severity. -/
def severityProblems
    (id level : String) : List ConfigProblem :=
  problemIf (!Catalog.identifiers.contains id)
      (.unknownRuleSeverity id) ++
    problemIf (!Severity.labels.contains level) (.badSeverity id)

/- The severities in the order of their rules. -/
def sortedSeverities (c : Config) : List (String × String) :=
  c.severities.mergeSort fun a b => decide (a.1 ≤ b.1)

/- The problems of the rules that a scan lists. -/
def ruleProblems (c : Config) : List ConfigProblem :=
  let listed :=
    c.scan.enabledRules?.getD [] ++ c.scan.disabledRules
  (listed.filter fun id => !Catalog.identifiers.contains id).map
      .unknownListedRule ++
    problemIf (c.scan.enabledRules? == some []) .noEnabledRules

/- The problem of the number of files that are linted at a time. -/
def jobsProblems (s : Setting) :
    Except SettingError (List ConfigProblem) :=
  (s.compareInt? 1).map fun order =>
    problemIf (order == some .lt) .tooFewJobs

/- The problem of the severity on which the gate fails. -/
def failOnProblems (s : Setting) :
    Except SettingError (List ConfigProblem) :=
  if s.isNull then .ok []
  else if s.isKey then
    .ok
      (problemIf (!Severity.labels.any fun l => s.isText l)
        .badFailOn)
  else .error .notKey

/- The problem of a limit of the gate. -/
def limitProblems
    (name : String)
    (s : Setting) :
    Except SettingError (List ConfigProblem) :=
  if s.isNull then .ok []
  else
    (s.compareInt? 0).map fun order =>
      problemIf (order == some .lt) (.negativeLimit name)

/- The problems of a configuration. -/
def problems (c : Config) :
    Except SettingError (List ConfigProblem) := do
  let severity :=
    c.sortedSeverities.flatMap fun (id, l) =>
      severityProblems id l
  let jobs ← jobsProblems c.scan.jobs
  let failOn ← failOnProblems c.gate.failOn
  let violations ←
    limitProblems "max_violations" c.gate.maxViolations
  let warning ← limitProblems "max_warning" c.gate.maxWarning
  let error ← limitProblems "max_error" c.gate.maxError
  let format :=
    problemIf
      (!reportFormats.any fun f => c.report.format.isText f)
      .badFormat
  return severity ++ c.ruleProblems ++ jobs ++ failOn ++
    violations ++ warning ++ error ++ format

end Config

end CommentLint
