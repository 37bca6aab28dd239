import CommentLint.Config.Validity
import CommentLint.Json.Printer

/-
  Reports of a scan.

  Numbers are written in decimal.  A report, or a summary, of
  a number that has too many digits cannot be written.

  Key definitions include:
    * `ReportFormat`
    * `Report.textForm`
    * `Report.jsonValue`
    * `Report.sarifValue`
    * `Report.render`
    * `Report.summary`
-/

namespace CommentLint

/- The name of the program, as its output gives it. -/
def programName : String :=
  "lexlint"

/- The version of the program. -/
def programVersion : String :=
  "0.1.0"

/- A format of reports. -/
inductive ReportFormat where
| text
| json
| sarif
deriving DecidableEq, Repr

namespace ReportFormat

/- The format that a setting names. -/
def ofSetting? (s : Setting) : Option ReportFormat :=
  if s.isText "text" then some .text
  else if s.isText "json" then some .json
  else if s.isText "sarif" then some .sarif
  else none

end ReportFormat

namespace Report

------------------------------------------------------------
-- Text
------------------------------------------------------------

/- The line of a violation. -/
def line (v : Violation) : String :=
  v.location.path ++ ":" ++ v.location.line.repr ++ ":" ++
    v.location.column.repr ++ ": " ++ v.severity.label ++ ": " ++
    v.title ++ " Violation: " ++ v.message ++ " (" ++ v.ruleId ++
    ")"

/- The numbers in the line of a violation. -/
def lineNumbers (v : Violation) : List Int :=
  [v.location.line, v.location.column]

/- One line for each violation. -/
def textForm (r : ScanResult) : String :=
  String.intercalate "\n" (r.violations.map line)

------------------------------------------------------------
-- Counts
------------------------------------------------------------

/- How often each string occurs, the strings in order. -/
def counts (items : List String) : List (String × Nat) :=
  (Selection.sortedSet items).map fun s => (s, items.count s)

/- The number of files with violations. -/
def filesWithViolations (r : ScanResult) : Nat :=
  (distinct (r.violations.map fun v => v.location.path)).length

------------------------------------------------------------
-- JSON
------------------------------------------------------------

/- A violation as a JSON object. -/
def violationValue (v : Violation) : Json.Value :=
  .object
    [
      ("rule_id", .text v.ruleId),
      ("title", .text v.title),
      ("severity", .text v.severity.label),
      ("message", .text v.message),
      ("file_path", .text v.location.path),
      ("byte_offset", .integer v.location.offset),
      ("line", .integer v.location.line),
      ("column", .integer v.location.column)
    ]

/- A count as a JSON number. -/
def countValue (n : Nat) : Json.Value :=
  .integer n

/- A result as a JSON object. -/
def jsonValue (r : ScanResult) : Json.Value :=
  .object
    [
      ("files_scanned", .integer r.filesScanned),
      ("files_with_violations",
        countValue (filesWithViolations r)),
      ("violations_total", countValue r.violations.length),
      ("severity_counts",
        .object
          [
            ("warning", countValue (r.count .warning)),
            ("error", countValue (r.count .error))
          ]),
      ("rule_counts",
        .object
          ((counts (r.violations.map fun v => v.ruleId)).map
            fun (id, n) => (id, countValue n))),
      ("violations", .array (r.violations.map violationValue))
    ]

------------------------------------------------------------
-- SARIF
------------------------------------------------------------

/- A violation as a SARIF result. -/
def sarifResult (v : Violation) : Json.Value :=
  .object
    [
      ("ruleId", .text v.ruleId),
      ("level", .text v.severity.label),
      ("message",
        .object [("text", .text (v.title ++ ": " ++ v.message))]),
      ("locations",
        .array
          [
            .object
              [
                ("physicalLocation",
                  .object
                    [
                      ("artifactLocation",
                        .object
                          [("uri", .text v.location.path)]),
                      ("region",
                        .object
                          [
                            ("startLine",
                              .integer v.location.line),
                            ("startColumn",
                              .integer v.location.column),
                            ("byteOffset",
                              .integer v.location.offset)
                          ])
                    ])
              ]
          ])
    ]

/- A result as a SARIF log. -/
def sarifValue (r : ScanResult) : Json.Value :=
  .object
    [
      ("$schema",
        .text "https://json.schemastore.org/sarif-2.1.0.json"),
      ("version", .text "2.1.0"),
      ("runs",
        .array
          [
            .object
              [
                ("tool",
                  .object
                    [
                      ("driver",
                        .object
                          [
                            ("name", .text programName),
                            ("version", .text programVersion)
                          ])
                    ]),
                ("results",
                  .array (r.violations.map sarifResult))
              ]
          ])
    ]

------------------------------------------------------------
-- Rendering
------------------------------------------------------------

/- The report of a result in a format. -/
def render
    (format : ReportFormat)
    (r : ScanResult) : Except Numeral.Error String :=
  match format with
  | .text =>
      ((r.violations.flatMap lineNumbers).mapM Numeral.write).map
        fun _ => textForm r
  | .json => (jsonValue r).indented
  | .sarif => (sarifValue r).indented

/- Why a report cannot be rendered. -/
inductive Error where
| unsupported (format : String)
| setting (cause : SettingError)
deriving DecidableEq, Repr

/- The message of an error. -/
def Error.message : Error → String
  | .unsupported format =>
      "Unsupported report format: " ++ format
  | .setting cause => cause.message

/- The error of a number that cannot be written. -/
def Error.ofNumeral (e : Numeral.Error) : Error :=
  .setting (.numeral e)

/- The report of a result in the format that a setting names. -/
def renderAs
    (format : Setting)
    (r : ScanResult) : Except Error String :=
  match ReportFormat.ofSetting? format with
  | some f => (render f r).mapError Error.ofNumeral
  | none =>
      match format.toText with
      | .ok text => .error (.unsupported text)
      | .error e => .error (.setting e)

------------------------------------------------------------
-- Summaries
------------------------------------------------------------

/- The totals of a result on one line. -/
def summary (r : ScanResult) : Except Numeral.Error String := do
  let files ← Numeral.write r.filesScanned
  let violations ← Numeral.write r.violations.length
  let warnings ← Numeral.write (r.count .warning)
  let errors ← Numeral.write (r.count .error)
  return "[summary] files=" ++ files ++ " violations=" ++
    violations ++ " warning=" ++ warnings ++ " error=" ++ errors

end Report

end CommentLint
