import CommentLint.CommandLine.Invocation
import CommentLint.Config.Load
import CommentLint.Delivery
import CommentLint.Gate
import CommentLint.Scan.Basic

/-
  Running a command line in a tree of files.

  A run ends with an exit code, what it shows and the tree as
  it leaves it.  A configuration with problems ends it before
  anything is scanned.

  Key definitions include:
    * `Outcome`
    * `Fault`
    * `Config.checked`
    * `FileTree.runScan`
    * `FileTree.runRules`
    * `FileTree.run`
-/

namespace CommentLint

------------------------------------------------------------
-- Outcomes and Faults
------------------------------------------------------------

/- How a run ends. -/
structure Outcome where
  exitCode : Nat
  stdout : String
  stderr : String
  tree : FileTree
deriving Repr

/- Why a run fails without an exit code. -/
inductive Fault where
| load (cause : LoadError)
| setting (cause : SettingError)
| selection (cause : SelectionError)
| scan (cause : ScanError)
| report (cause : Report.Error)
| delivery (cause : DeliveryError)
| gate (cause : GateError)
deriving DecidableEq, Repr

/- The message of a fault. -/
def Fault.message : Fault → String
  | .load cause => cause.message
  | .setting cause => cause.message
  | .selection cause => cause.message
  | .scan cause => cause.message
  | .report cause => cause.message
  | .delivery cause => cause.message
  | .gate cause => cause.message

/- The exit code of a run that refuses or does not pass. -/
def refusal : Nat :=
  2

/- Lines, each with its end. -/
def unlines (lines : List String) : String :=
  String.join (lines.map fun l => l ++ "\n")

/- Lines that begin with a tag in brackets. -/
def taggedLines
    (tag : String)
    (messages : List String) : String :=
  unlines (messages.map fun m => "[" ++ tag ++ "] " ++ m)

/- The outcome of a configuration that cannot be used. -/
def refuseConfig
    (t : FileTree)
    (messages : List String) : Outcome :=
  ⟨refusal, "", taggedLines "config" messages, t⟩

------------------------------------------------------------
-- Ends of Parsing
------------------------------------------------------------

namespace CommandLine

/- The line that tells how a program is used. -/
def usageLine (program : String) : String :=
  "usage: " ++ program ++ " [options] ..."

/- The outcome of a command line that asks for nothing to be run. -/
def Stop.outcome
    (t : FileTree) : Stop → Outcome
  | .help program => ⟨0, unlines [usageLine program], "", t⟩
  | .version =>
      ⟨0, unlines [programName ++ " " ++ programVersion], "", t⟩
  | .usage program e =>
      ⟨refusal, "",
        unlines
          [
            usageLine program,
            program ++ ": error: " ++ e.message
          ],
        t⟩

end CommandLine

------------------------------------------------------------
-- Scans
------------------------------------------------------------

namespace Config

/- The scan that a configuration asks for, with rules. -/
def request
    (c : Config)
    (rules : List Rule) : Scan.Request :=
  { rules := rules
    exclude := c.scan.exclude
    includeExtensions := c.scan.includeExtensions
    maxFileSizeKb := c.scan.maxFileSizeKb
    inlineIgnore := c.scan.inlineIgnore
    jobs := c.scan.jobs }

/- Go on with a configuration unless it has problems. -/
def checked
    (c : Config)
    (t : FileTree)
    (go : Config → Except Fault Outcome) :
    Except Fault Outcome :=
  match c.problems with
  | .error cause => .error (.setting cause)
  | .ok [] => go c
  | .ok problems =>
      .ok (refuseConfig t (problems.map ConfigProblem.message))

end Config

namespace FileTree

/- What a scan says about its progress. -/
def progress
    (t : FileTree)
    (verbose : Bool)
    (r : Scan.Request)
    (files : List (Path × String)) : String :=
  if verbose then
    unlines ((t.scanTraces r files).map Scan.Trace.line)
  else ""

/-
  Scan a path under a configuration, deliver the report, sum
  up and pass the result through the gate.
-/
def scanUnder
    (t : FileTree)
    (verbose : Bool)
    (path : String)
    (c : Config) : Except Fault Outcome := do
  let rules ← c.selection.build.mapError .selection
  let request := c.request rules
  let files ←
    (t.scanned request (Path.ofString path)).mapError .scan
  let result ← (t.scanFiles request files).mapError .scan
  let report ←
    (Report.renderAs c.report.format result).mapError .report
  let delivery ←
    (t.deliver c.report.out report).mapError .delivery
  let summary ←
    (Report.summary result).mapError (.report ∘ .ofNumeral)
  let reasons ← (Gate.reasons result c.gate).mapError .gate
  return {
    exitCode := if reasons.isEmpty then 0 else refusal
    stdout := delivery.shown
    stderr :=
      t.progress verbose request files ++
        unlines [summary] ++
        taggedLines "gate" (reasons.map GateReason.message)
    tree := delivery.tree
  }

/- Run a scan with its options. -/
def runScan
    (t : FileTree)
    (verbose : Bool)
    (o : ScanOptions) : Except Fault Outcome :=
  match t.loadConfig o.config? with
  | .error cause => .error (.load cause)
  | .ok c =>
      match c.merge o with
      | .error (.setting cause) => .error (.setting cause)
      | .error e => .ok (refuseConfig t [e.message])
      | .ok c => c.checked t (t.scanUnder verbose o.path)

------------------------------------------------------------
-- Lists of Rules
------------------------------------------------------------

/- The line that describes a rule. -/
def ruleLine (r : Rule) : String :=
  String.intercalate "\t"
    [
      r.info.identifier, r.info.name, r.info.kind,
      r.severity.label, r.info.description
    ]

/- List the rules at the severities of a configuration. -/
def listRules
    (t : FileTree)
    (c : Config) : Except Fault Outcome :=
  match
    Selection.build { severities := c.selection.severities }
  with
  | .error cause => .error (.selection cause)
  | .ok rules =>
      .ok ⟨0, unlines (rules.map ruleLine), "", t⟩

/- Run the list of rules. -/
def runRules
    (t : FileTree)
    (config? : Option (Given String)) : Except Fault Outcome :=
  match t.loadConfig config? with
  | .error cause => .error (.load cause)
  | .ok c => c.checked t t.listRules

------------------------------------------------------------
-- Command Lines
------------------------------------------------------------

open CommandLine

/- Run a command line. -/
def run
    (t : FileTree)
    (words : List String) : Except Fault Outcome :=
  match Invocation.parse words with
  | .error stop => .ok (stop.outcome t)
  | .ok ⟨verbose, .scan options⟩ => t.runScan verbose options
  | .ok ⟨_, .rules config?⟩ => t.runRules config?

end FileTree

end CommentLint
