import CommentLint.Rule.Catalog

/-
  Configuration of a scan, its gate and its report.

  Settings whose kind matters later are kept as they were
  given; numbers of the scan are read as integers at once.

  Key definitions include:
    * `Config`
    * `Config.ofSetting`
-/

namespace CommentLint

------------------------------------------------------------
-- Sections
------------------------------------------------------------

/- Names of files and directories that a scan leaves out. -/
def defaultExcludes : List String :=
  [
    ".git", ".build", "build", "DerivedData", "Pods",
    "Carthage", "node_modules"
  ]

/- Suffixes of the files that a scan takes. -/
def defaultExtensions : List String :=
  [
    ".swift", ".c", ".h", ".m", ".mm", ".cpp", ".hpp", ".cc",
    ".cs", ".java", ".kt", ".kts", ".go", ".rs", ".js", ".jsx",
    ".ts", ".tsx", ".scala", ".dart"
  ]

/- What a scan reads and which rules it runs. -/
structure ScanConfig where
  exclude : List Setting := defaultExcludes.map .text
  includeExtensions : List Setting :=
    defaultExtensions.map .text
  maxFileSizeKb : Setting := .integer 1024
  enabledRules? : Option (List String) := none
  disabledRules : List String := []
  inlineIgnore : Bool := true
  jobs : Setting := .integer 1
deriving Repr

/- When a result fails; null stands for no limit. -/
structure GateConfig where
  failOn : Setting := .null
  maxViolations : Setting := .null
  maxWarning : Setting := .null
  maxError : Setting := .null
deriving Repr

/- How and where a report is written; null stands for the screen. -/
structure ReportConfig where
  format : Setting := .text "text"
  out : Setting := .null
deriving Repr

/- A configuration; the severities are by rule, in order. -/
structure Config where
  scan : ScanConfig := {}
  severities : List (String × String) := []
  gate : GateConfig := {}
  report : ReportConfig := {}
deriving Repr

------------------------------------------------------------
-- Reading
------------------------------------------------------------

namespace Config

/- Give a rule a severity; a rule that has one keeps its place. -/
def putSeverity
    (id level : String) :
    List (String × String) → List (String × String)
  | [] => [(id, level)]
  | (i, l) :: rest =>
      if i = id then (i, level) :: rest
      else (i, l) :: putSeverity id level rest

/- The texts of settings in small letters. -/
def lowerTexts (items : List Setting) :
    Except SettingError (List String) :=
  items.mapM Setting.lowerText

/- The names in a list of rules, in small letters. -/
def ruleNames (s : Setting) :
    Except SettingError (List String) :=
  s.elements.bind lowerTexts

/- The integer that a setting gives, as a setting. -/
def integerOf (s : Setting) : Except SettingError Setting :=
  s.toInt.map .integer

/- The names of the only rules to run; null stands for no such list. -/
def enabledOf (s : Setting) :
    Except SettingError (Option (List String)) :=
  if s.isNull then .ok none else (ruleNames s).map some

/- The scan section of a configuration. -/
def scanOf (s : Setting) :
    Except SettingError ScanConfig := do
  let defaults : ScanConfig := {}
  let exclude ←
    (← s.field? "exclude").elim (.ok defaults.exclude)
      Setting.elements
  let includeExtensions ←
    (← s.field? "include_extensions").elim
      (.ok defaults.includeExtensions) Setting.elements
  let maxFileSizeKb ←
    (← s.field? "max_file_size_kb").elim
      (.ok defaults.maxFileSizeKb) integerOf
  let enabledRules? ←
    enabledOf (← s.fieldOrNull "enabled_rules")
  let disabledRules ←
    (← s.field? "disabled_rules").elim (.ok []) ruleNames
  let inlineIgnore :=
    (← s.field? "inline_ignore").elim defaults.inlineIgnore
      Setting.isTrue
  let jobs ←
    (← s.field? "jobs").elim (.ok defaults.jobs) integerOf
  return {
    exclude := exclude
    includeExtensions := includeExtensions
    maxFileSizeKb := maxFileSizeKb
    enabledRules? := enabledRules?
    disabledRules := disabledRules
    inlineIgnore := inlineIgnore
    jobs := jobs
  }

/-
  The severity that a rule's setting asks for: the setting, or
  its field of that name when it is a table.
-/
def severityOf (s : Setting) : Setting :=
  match s with
  | .table fields => (fields.lookup "severity").getD .null
  | s => s

/- The severities of rules, read behind those read already. -/
def severitiesOf
    (done : List (String × String)) :
    List (String × Setting) →
      Except SettingError (List (String × String))
  | [] => .ok done
  | (id, value) :: rest =>
      let severity := severityOf value
      if severity.isNull then severitiesOf done rest
      else
        match severity.lowerText with
        | .error e => .error e
        | .ok level =>
            severitiesOf (putSeverity (lowerString id) level done)
              rest

/- The gate section of a configuration. -/
def gateOf (s : Setting) :
    Except SettingError GateConfig := do
  return {
    failOn := ← s.fieldOrNull "fail_on"
    maxViolations := ← s.fieldOrNull "max_violations"
    maxWarning := ← s.fieldOrNull "max_warning"
    maxError := ← s.fieldOrNull "max_error"
  }

/- The report section of a configuration. -/
def reportOf (s : Setting) :
    Except SettingError ReportConfig := do
  let defaults : ReportConfig := {}
  return {
    format := (← s.field? "format").getD defaults.format
    out := ← s.fieldOrNull "out"
  }

/- A section of a configuration, empty when it is missing. -/
def section?
    (s : Setting)
    (name : String) : Except SettingError Setting :=
  (s.field? name).map fun v => v.getD (.table [])

/- The configuration that a setting gives. -/
def ofSetting (s : Setting) : Except SettingError Config := do
  let scan ← section? s "scan"
  let rules ← section? s "rules"
  let gate ← section? s "quality_gate"
  let report ← section? s "report"
  let scan ← scanOf scan
  let severities ← severitiesOf [] (← rules.fields)
  let gate ← gateOf gate
  let report ← reportOf report
  return {
    scan := scan
    severities := severities
    gate := gate
    report := report
  }

/- The selection of rules that a configuration asks for. -/
def selection (c : Config) : Selection :=
  { severities := c.severities.map fun (id, l) => (id, .text l)
    enabled? := c.scan.enabledRules?.map (List.map .text)
    disabled := c.scan.disabledRules.map .text }

end Config

end CommentLint
