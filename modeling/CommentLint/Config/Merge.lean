import CommentLint.Config.Validity
import CommentLint.Given

/-
  Options of a scan and their effect on a configuration.

  Options that may be repeated add to lists; an option that is
  not given changes nothing.  Severities are applied one by
  one, so a malformed one leaves those before it in place.
  Nothing in the place of a value counts as an empty list.

  Key definitions include:
    * `ScanOptions`
    * `MergeError`
    * `Config.merge`
-/

namespace CommentLint

------------------------------------------------------------
-- Options
------------------------------------------------------------

/- The options of a scan as they were given. -/
structure ScanOptions where
  path : String := "."
  config? : Option (Given String) := none
  exclude : List (Given String) := []
  includeExt : List (Given String) := []
  enableRule : List (Given String) := []
  disableRule : List (Given String) := []
  severity : List (Given String) := []
  noInlineIgnore : Bool := false
  maxFileSizeKb? : Option (Given Int) := none
  jobs? : Option (Given Int) := none
  format? : Option (Given String) := none
  out? : Option (Given String) := none
  failOn? : Option (Given String) := none
  maxViolations? : Option (Given Int) := none
  maxWarning? : Option (Given Int) := none
  maxError? : Option (Given Int) := none
deriving DecidableEq, Repr

/-
  Why options cannot be merged; a malformed severity comes
  with the configuration as it was by then.
-/
inductive MergeError where
| malformedSeverity (text : String) (soFar : Config)
| setting (cause : SettingError)
deriving Repr

namespace MergeError

/- The message of an error. -/
def message : MergeError → String
  | .malformedSeverity text _ =>
      "--severity expects RULE=LEVEL, got '" ++ text ++ "'"
  | .setting cause => cause.message

end MergeError

------------------------------------------------------------
-- Steps
------------------------------------------------------------

/-
  The rule and the level of a severity option: the stripped
  sides of its first `=`, in small letters.
-/
def severityOption? (text : String) :
    Option (String × String) :=
  let s := text.toList
  match s.dropWhile (· != '=') with
  | [] => none
  | _ :: after =>
      let id := strip (s.takeWhile (· != '='))
      let level := strip after
      if id.isEmpty || level.isEmpty then none
      else
        some
          (String.ofList (Casing.lower id),
            String.ofList (Casing.lower level))

namespace Config

/- The setting that a value gives. -/
def settingOf
    {α : Type}
    (wrap : α → Setting) :
    Given α → Setting
  | .value a => wrap a
  | .nothing => .list []

/- A text that was given, in small letters. -/
def lowerGiven :
    Given String → Except SettingError String
  | .value s => .ok (lowerString s)
  | .nothing => .error .notText

/- Settings and texts to add to them, each kept once. -/
def addTexts
    (items : List Setting)
    (texts : List (Given String)) :
    Except SettingError (List Setting) :=
  if texts.isEmpty then .ok items
  else distinctKeys (items ++ texts.map (settingOf .text))

/- Rules and names to add to them, each kept once. -/
def addRules
    (rules : List String)
    (names : List (Given String)) :
    Except SettingError (List String) :=
  if names.isEmpty then .ok rules
  else
    (names.mapM lowerGiven).map fun low =>
      distinct (rules ++ low)

/- The only rules to run and names to add to them. -/
def addEnabled
    (rules? : Option (List String))
    (names : List (Given String)) :
    Except SettingError (Option (List String)) :=
  if names.isEmpty then .ok rules?
  else (addRules (rules?.getD []) names).map some

/- Add the options that make lists longer. -/
def mergeLists
    (c : Config)
    (o : ScanOptions) : Except SettingError Config := do
  let exclude ← addTexts c.scan.exclude o.exclude
  let includeExtensions ←
    addTexts c.scan.includeExtensions o.includeExt
  let enabledRules? ← addEnabled c.scan.enabledRules? o.enableRule
  let disabledRules ← addRules c.scan.disabledRules o.disableRule
  return {
    c with
    scan := {
      c.scan with
      exclude := exclude
      includeExtensions := includeExtensions
      enabledRules? := enabledRules?
      disabledRules := disabledRules
    }
  }

/- Apply severity options one by one. -/
def mergeSeverities
    (c : Config) :
    List (Given String) → Except MergeError Config
  | [] => .ok c
  | .nothing :: _ => .error (.setting .notText)
  | .value text :: rest =>
      match severityOption? text with
      | none => .error (.malformedSeverity text c)
      | some (id, level) =>
          mergeSeverities
            { c with
              severities := putSeverity id level c.severities }
            rest

/- A text that was given and is not empty, as a setting. -/
def textOr
    (given? : Option (Given String))
    (s : Setting) : Setting :=
  match given? with
  | some (.value t) => if t.isEmpty then s else .text t
  | _ => s

/- A number that was given, as a setting. -/
def integerOr
    (given? : Option (Given Int))
    (s : Setting) : Setting :=
  (given?.map (settingOf .integer)).getD s

/- Apply the options that have one value. -/
def mergeValues
    (c : Config)
    (o : ScanOptions) : Config :=
  { c with
    scan := {
      c.scan with
      inlineIgnore := !o.noInlineIgnore && c.scan.inlineIgnore
      maxFileSizeKb :=
        integerOr o.maxFileSizeKb? c.scan.maxFileSizeKb
      jobs := integerOr o.jobs? c.scan.jobs
    }
    gate := {
      failOn := textOr o.failOn? c.gate.failOn
      maxViolations :=
        integerOr o.maxViolations? c.gate.maxViolations
      maxWarning := integerOr o.maxWarning? c.gate.maxWarning
      maxError := integerOr o.maxError? c.gate.maxError
    }
    report := {
      format := textOr o.format? c.report.format
      out := textOr o.out? c.report.out
    } }

/- A configuration with the options of a scan applied to it. -/
def merge
    (c : Config)
    (o : ScanOptions) : Except MergeError Config := do
  let c ← (c.mergeLists o).mapError .setting
  let c ← c.mergeSeverities o.severity
  return c.mergeValues o

end Config

end CommentLint
