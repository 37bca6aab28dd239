import CommentLint.Rule.CommentSpacing
import CommentLint.Setting.Basic

/-
  The rules there are, and the choice among them.

  Key definitions include:
    * `Catalog.rules`
    * `Selection`
    * `Selection.build`
-/

namespace CommentLint

namespace Catalog

/- Every rule, at the severity that it has by default. -/
def rules : List Rule :=
  [CommentSpacing.rule .warning]

/- The identifiers of all rules. -/
def identifiers : List String :=
  rules.map fun r => r.info.identifier

end Catalog

------------------------------------------------------------
-- Selections
------------------------------------------------------------

/- Why a selection of rules cannot be made. -/
inductive SelectionError where
| unknownRules (ids : List String)
| badSeverity (text : String)
| setting (cause : SettingError)
deriving DecidableEq, Repr

namespace SelectionError

/- The message of an error. -/
def message : SelectionError → String
  | .unknownRules ids =>
      "Unknown rule identifier(s): " ++
        String.intercalate ", " ids
  | .badSeverity text =>
      "Invalid severity '" ++ text ++ "'; expected one of: " ++
        Severity.labelList
  | .setting cause => cause.message

end SelectionError

/-
  The severities of rules that differ from the default, the
  only rules to run when they are listed, and the rules not to
  run.
-/
structure Selection where
  severities : List (String × Setting) := []
  enabled? : Option (List Setting) := none
  disabled : List Setting := []
deriving Repr

namespace Selection

/- The severity that a setting stands for. -/
def severityOf (s : Setting) :
    Except SelectionError Severity :=
  if ¬ s.isKey then .error (.setting .notKey)
  else if s.isText "warning" then .ok .warning
  else if s.isText "error" then .ok .error
  else
    match s.toText with
    | .ok text => .error (.badSeverity text)
    | .error e => .error (.setting e)

/- Strings in order and without repetition. -/
def sortedSet (items : List String) : List String :=
  (distinct items).mergeSort fun a b => decide (a ≤ b)

/- The rule at the severity that a selection asks for. -/
def atSeverity
    (s : Selection)
    (r : Rule) : Except SelectionError Rule :=
  match s.severities.lookup r.info.identifier with
  | none => .ok r
  | some .null => .ok r
  | some severity =>
      (severityOf severity).map fun level =>
        { r with severity := level }

/- Whether a selection runs a rule. -/
def runs
    (s : Selection)
    (id : String) : Bool :=
  !Setting.hasText s.disabled id &&
    (match s.enabled? with
      | none => true
      | some enabled => Setting.hasText enabled id)

/- The rules that a selection runs. -/
def build (s : Selection) :
    Except SelectionError (List Rule) :=
  let unknown :=
    (s.severities.map Prod.fst).filter
      fun id => !Catalog.identifiers.contains id
  if ¬ unknown.isEmpty then
    .error (.unknownRules (sortedSet unknown))
  else if ¬ ((s.enabled?.getD []) ++ s.disabled).all Setting.isKey
  then .error (.setting .notKey)
  else
    (Catalog.rules.filter fun r => s.runs r.info.identifier).mapM
      s.atSeverity

end Selection

end CommentLint
