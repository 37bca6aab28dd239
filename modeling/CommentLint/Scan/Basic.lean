import CommentLint.Rule.Catalog
import CommentLint.Scan.Collect
import CommentLint.Scan.Merged
import CommentLint.Suppression

/-
  Scanning a file or the files below a directory.

  A file is reported by its place relative to the directory
  that is scanned, or by its path when it lies elsewhere.  A
  file that cannot be read gives a violation that says so.

  Key definitions include:
    * `Scan.Request`
    * `FileTree.scanFile`
    * `FileTree.scanPlace`
-/

namespace CommentLint

namespace Scan

------------------------------------------------------------
-- Requests and Traces
------------------------------------------------------------

/- Which files a scan takes, and what it does with every one. -/
structure Request where
  rules : List Rule
  exclude : List Setting
  includeExtensions : List Setting
  maxFileSizeKb : Setting
  inlineIgnore : Bool
  jobs : Setting

/- The filter of the files that a request takes. -/
def Request.filter
    (r : Request) : Except SettingError FileFilter :=
  FileFilter.ofSettings r.exclude r.includeExtensions
    r.maxFileSizeKb

/- What a scan notes along the way. -/
inductive Trace where
| unresolved (span : Span) (path : String)
| linted (path : String) (count : Nat)
| unreadable (path : String) (cause : String)
deriving DecidableEq, Repr

namespace Trace

/- The part of the program that a note is from. -/
def source : Trace → String
  | .unresolved _ _ => "lexlint.rules.comment_spacing"
  | _ => "lexlint.scanner"

/- What a note says. -/
def text : Trace → String
  | .unresolved span path =>
      "Skipping span " ++ span.offset.repr ++ "+" ++
        span.length.repr ++ " in " ++ path ++
        ": byte range does not resolve"
  | .linted path count =>
      path ++ ": " ++ count.repr ++ " violation(s)"
  | .unreadable path cause =>
      "Unable to read " ++ path ++ ": " ++ cause

/- The line of a note. -/
def line (t : Trace) : String :=
  "DEBUG " ++ t.source ++ ": " ++ t.text

end Trace

------------------------------------------------------------
-- One File
------------------------------------------------------------

/- The violation that a file cannot be read. -/
def readError
    (relative : String)
    (cause : String) : Violation :=
  { ruleId := "file_read_error"
    title := "File read error"
    severity := .warning
    message := "Unable to read file during scan: " ++ cause
    location := ⟨relative, 0, 1, 1⟩ }

/- The violations in the bytes of a file. -/
def lintBytes
    (rules : List Rule)
    (inlineIgnore : Bool)
    (data : Bytes)
    (relative : String) : List Violation :=
  let found := lint rules (SourceFile.read data relative)
  if inlineIgnore then Suppression.filter data found else found

/- What linting the bytes of a file notes. -/
def lintTraces
    (rules : List Rule)
    (data : Bytes)
    (relative : String) : List Trace :=
  let f := SourceFile.read data relative
  (rules.flatMap fun r =>
      (r.unresolved f).map fun s => .unresolved s relative) ++
    [.linted relative (lint rules f).length]

end Scan

namespace FileTree

/- The violations in the file at a path. -/
def scanFile
    (t : FileTree)
    (rules : List Rule)
    (inlineIgnore : Bool)
    (p : Path)
    (relative : String) : Except PathError (List Violation) :=
  match t.read p with
  | .ok data =>
      .ok (Scan.lintBytes rules inlineIgnore data relative)
  | .error .nullByte => .error .nullByte
  | .error e => .ok [Scan.readError relative e.message]

/- What scanning the file at a path notes. -/
def fileTraces
    (t : FileTree)
    (rules : List Rule)
    (p : Path)
    (relative : String) : List Scan.Trace :=
  match t.read p with
  | .ok data => Scan.lintTraces rules data relative
  | .error e => [.unreadable p.text e.message]

------------------------------------------------------------
-- Reported Paths
------------------------------------------------------------

/- The text of names from a directory. -/
def relativeText (names : List String) : String :=
  (Path.mk .here names).text

/- The path by which a file is reported in a scan of a directory. -/
def reportedPath
    (t : FileTree)
    (base p : Path) : Except ScanError String :=
  match t.resolve p with
  | .ok q => .ok (((base.namesTo? q).map relativeText).getD p.text)
  | .error .nullByte => .ok p.text
  | .error e => .error (.resolve e)

/- The directory that reported paths start from. -/
def baseOf
    (t : FileTree)
    (root : Path) : Except PathError Path :=
  (t.isFile root).map fun isFile =>
    if isFile then root.parent else root

------------------------------------------------------------
-- Many Files
------------------------------------------------------------

/- Files with the paths by which they are reported. -/
def reported
    (t : FileTree)
    (base : Path)
    (files : List Path) :
    Except ScanError (List (Path × String)) :=
  files.mapM fun p =>
    (t.reportedPath base p).map fun relative => (p, relative)

/- The files of a scan, with the paths by which they are reported. -/
def scanned
    (t : FileTree)
    (r : Scan.Request)
    (p : Path) : Except ScanError (List (Path × String)) := do
  let root ← (t.resolve p).mapError .resolve
  let base ← (t.baseOf root).mapError .access
  let filter ← r.filter.mapError .setting
  let files ← t.collect filter root
  let _ ← (r.jobs.compareInt? 1).mapError .setting
  t.reported base files

/- Scan files that are reported by given paths. -/
def scanFiles
    (t : FileTree)
    (r : Scan.Request)
    (files : List (Path × String)) :
    Except ScanError ScanResult :=
  let found :=
    files.mapM fun (p, relative) =>
      t.scanFile r.rules r.inlineIgnore p relative
  match found with
  | .error cause => .error (.access cause)
  | .ok violations =>
      .ok
        { violations := Violation.merged violations.flatten
          filesScanned := files.length }

/- Scan a file or a directory. -/
def scan
    (t : FileTree)
    (r : Scan.Request)
    (p : Path) : Except ScanError ScanResult :=
  (t.scanned r p).bind (t.scanFiles r)

/- What scanning files notes. -/
def scanTraces
    (t : FileTree)
    (r : Scan.Request)
    (files : List (Path × String)) : List Scan.Trace :=
  files.flatMap fun (p, relative) =>
    t.fileTraces r.rules p relative

end FileTree

end CommentLint
