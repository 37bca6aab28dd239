import CommentLint.CommandLine.Grammar
import CommentLint.Config.Merge
import CommentLint.Report

/-
  What a command line asks the program to do.

  The program takes a command, and every command has options
  of its own.  Words that neither of the two takes are an
  error, which is noticed last.

  Key definitions include:
    * `Command`
    * `Task`
    * `Invocation`
    * `Invocation.parse`
-/

namespace CommentLint

namespace CommandLine

------------------------------------------------------------
-- Grammars of the Program
------------------------------------------------------------

/- An option with one name that takes a value of some kind. -/
def valueOption
    (name : String)
    (kind : OptionKind) : OptionSpec :=
  ⟨[name], kind⟩

/- The options before the command. -/
def mainGrammar : Grammar :=
  { program := programName
    options :=
      [
        helpOption,
        ⟨["--version"], .version⟩,
        ⟨["-v", "--verbose"], .flag⟩
      ]
    operand := .command }

/- The options of a scan. -/
def scanGrammar : Grammar :=
  { program := programName ++ " scan"
    options :=
      [
        helpOption,
        valueOption "--config" .text,
        valueOption "--exclude" .text,
        valueOption "--include-ext" .text,
        valueOption "--enable-rule" .text,
        valueOption "--disable-rule" .text,
        valueOption "--severity" .text,
        valueOption "--no-inline-ignore" .flag,
        valueOption "--max-file-size-kb" .integer,
        valueOption "--jobs" .integer,
        valueOption "--format" (.choice reportFormats),
        valueOption "--out" .text,
        valueOption "--fail-on" (.choice Severity.labels),
        valueOption "--max-violations" .integer,
        valueOption "--max-warning" .integer,
        valueOption "--max-error" .integer
      ]
    operand := .single }

/- The options of the list of rules. -/
def rulesGrammar : Grammar :=
  { program := programName ++ " rules"
    options := [helpOption, valueOption "--config" .text]
    operand := .none }

------------------------------------------------------------
-- Commands
------------------------------------------------------------

/- The commands of the program. -/
inductive Command where
| scan
| rules
deriving DecidableEq, Repr

namespace Command

/- Every command, in the order in which messages list them. -/
def all : List Command :=
  [.scan, .rules]

/- The name of a command. -/
def name : Command → String
  | .scan => "scan"
  | .rules => "rules"

/- The command of a name. -/
def ofName? (name : String) : Option Command :=
  all.find? fun c => c.name == name

/- The options of a command. -/
def grammar : Command → Grammar
  | .scan => scanGrammar
  | .rules => rulesGrammar

end Command

------------------------------------------------------------
-- Tasks
------------------------------------------------------------

/- What a command does with its options. -/
inductive Task where
| scan (options : ScanOptions)
| rules (config? : Option (Given String))
deriving DecidableEq, Repr

/- A task, and whether it tells what it does. -/
structure Invocation where
  verbose : Bool
  task : Task
deriving DecidableEq, Repr

/-
  Apply an option of a scan.  An option that may be repeated
  adds to its list; of the others the last one counts.
-/
def applyScanOption
    (o : ScanOptions)
    (given : String × Value) : ScanOptions :=
  let text? := given.2.text?
  let integer? := given.2.integer?
  match given.1 with
  | "--config" => { o with config? := text?.or o.config? }
  | "--exclude" =>
      { o with exclude := o.exclude ++ text?.toList }
  | "--include-ext" =>
      { o with includeExt := o.includeExt ++ text?.toList }
  | "--enable-rule" =>
      { o with enableRule := o.enableRule ++ text?.toList }
  | "--disable-rule" =>
      { o with disableRule := o.disableRule ++ text?.toList }
  | "--severity" =>
      { o with severity := o.severity ++ text?.toList }
  | "--no-inline-ignore" => { o with noInlineIgnore := true }
  | "--max-file-size-kb" =>
      { o with maxFileSizeKb? := integer?.or o.maxFileSizeKb? }
  | "--jobs" => { o with jobs? := integer?.or o.jobs? }
  | "--format" => { o with format? := text?.or o.format? }
  | "--out" => { o with out? := text?.or o.out? }
  | "--fail-on" => { o with failOn? := text?.or o.failOn? }
  | "--max-violations" =>
      { o with maxViolations? := integer?.or o.maxViolations? }
  | "--max-warning" =>
      { o with maxWarning? := integer?.or o.maxWarning? }
  | "--max-error" =>
      { o with maxError? := integer?.or o.maxError? }
  | _ => o

/- The options of a scan that a command line gives. -/
def scanOptions (p : Parsed) : ScanOptions :=
  let path :=
    match p.operand? with
    | some (path :: _) => path
    | _ => "."
  p.given.foldl applyScanOption { path := path }

/- The last text that is given for an option. -/
def lastText?
    (name : String)
    (p : Parsed) : Option (Given String) :=
  p.given.foldl
    (fun found (n, v) =>
      if n = name then v.text?.or found else found)
    none

/- The task of a command with its options. -/
def taskOf
    (c : Command)
    (p : Parsed) : Task :=
  match c with
  | .scan => .scan (scanOptions p)
  | .rules => .rules (lastText? "--config" p)

------------------------------------------------------------
-- Parsing
------------------------------------------------------------

namespace Invocation

/- Read a command with its options, behind the options before it. -/
def parseCommand
    (top : Parsed)
    (name : String)
    (rest : List String) : Except Stop Invocation :=
  match Command.ofName? name with
  | none =>
      mainGrammar.fail
        (.badChoice "command" name (Command.all.map Command.name))
  | some c =>
      match c.grammar.parse rest with
      | .error stop => .error stop
      | .ok p =>
          let extras := top.extras ++ p.extras
          if extras.isEmpty then
            .ok
              { verbose := top.given.contains ("--verbose", .set)
                task := taskOf c p }
          else mainGrammar.fail (.unrecognized extras)

/- Read a command line. -/
def parse (words : List String) : Except Stop Invocation :=
  match mainGrammar.parse words with
  | .error stop => .error stop
  | .ok top =>
      match top.operand? with
      | some (name :: rest) => parseCommand top name rest
      | _ => mainGrammar.fail .missingCommand

end Invocation

end CommandLine

end CommentLint
