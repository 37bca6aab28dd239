import CommentLint.Config.Basic

/-
  The quality gate.

  A result fails the gate when a violation is at least as
  severe as allowed, or when there are more violations than a
  limit.  Limits are compared exactly, whatever kind of number
  they are.

  Key definitions include:
    * `GateReason`
    * `GateError`
    * `Gate.reasons`
-/

namespace CommentLint

------------------------------------------------------------
-- Reasons and Errors
------------------------------------------------------------

/- Why a result fails; limits come as their texts. -/
inductive GateReason where
| severity (failOn : String)
| violations (count : Nat) (limit : String)
| level (severity : Severity) (count : Nat) (limit : String)
deriving DecidableEq, Repr

namespace GateReason

/- The message of a reason. -/
def message : GateReason → String
  | .severity failOn =>
      "Detected violation severity >= '" ++ failOn ++ "'"
  | .violations count limit =>
      "Violation count " ++ count.repr ++
        " exceeds max_violations=" ++ limit
  | .level s count limit =>
      s.label ++ " violation count " ++ count.repr ++
        " exceeds max_" ++ s.label ++ "=" ++ limit

end GateReason

/-
  Why a gate cannot be evaluated: a severity has no rank, and
  comes as its literal, or a setting is of the wrong kind.
-/
inductive GateError where
| unranked (literal : String)
| setting (cause : SettingError)
deriving DecidableEq, Repr

namespace GateError

/- The message of an error. -/
def message : GateError → String
  | .unranked literal => literal
  | .setting cause => cause.message

end GateError

------------------------------------------------------------
-- Evaluation
------------------------------------------------------------

namespace Gate

/- The rank of a severity. -/
def rank (s : Severity) : Except GateError Nat :=
  match s.rank? with
  | some n => .ok n
  | none => .error (.unranked (quoted s.label))

/- The rank of the severity that a setting names. -/
def threshold (failOn : Setting) : Except GateError Nat :=
  match failOn with
  | .text label => rank (Severity.ofLabel label)
  | s =>
      if s.isKey then
        match s.literal with
        | .ok literal => .error (.unranked literal)
        | .error e => .error (.setting e)
      else .error (.setting .notKey)

/-
  Whether some violation reaches a rank; the first that does
  ends the search.
-/
def reaches
    (limit : Nat) :
    List Violation → Except GateError Bool
  | [] => .ok false
  | v :: rest =>
      match rank v.severity with
      | .error e => .error e
      | .ok n => if limit ≤ n then .ok true else reaches limit rest

/- The reason that a severity is reached. -/
def severityReasons
    (violations : List Violation)
    (failOn : Setting) : Except GateError (List GateReason) :=
  if failOn.isNull then .ok []
  else do
    let limit ← threshold failOn
    let reached ← reaches limit violations
    if reached then
      let text ← failOn.toText.mapError .setting
      return [.severity text]
    else return []

/- The reason that a count exceeds a limit. -/
def limitReasons
    (count : Nat)
    (reason : String → GateReason)
    (limit : Setting) : Except GateError (List GateReason) :=
  if limit.isNull then .ok []
  else do
    let order ← (limit.compareInt? count).mapError .setting
    if order = some .lt then
      let text ← limit.toText.mapError .setting
      return [reason text]
    else return []

/- The reasons for which a result fails; none when it passes. -/
def reasons
    (r : ScanResult)
    (g : GateConfig) : Except GateError (List GateReason) := do
  let severity ← severityReasons r.violations g.failOn
  let total := r.violations.length
  let violations ←
    limitReasons total (.violations total) g.maxViolations
  let warnings := r.count .warning
  let warning ←
    limitReasons warnings (.level .warning warnings) g.maxWarning
  let errors := r.count .error
  let error ←
    limitReasons errors (.level .error errors) g.maxError
  return severity ++ violations ++ warning ++ error

end Gate

end CommentLint
