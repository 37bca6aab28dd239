import CommentLint.FileTree.Resolve
import CommentLint.Setting.Basic

/-
  The files that a scan takes.

  In every directory its files come first and then its
  subdirectories, both in order of their names.  A linked file
  counts as a file of its own name; a linked directory is not
  entered.  A file that is named itself is taken whatever its
  name is.

  Entries that may be files are listed first.  Only then is
  each of them looked at, and the first that cannot be looked
  at ends the work.

  Key definitions include:
    * `FileFilter`
    * `FileFilter.excludes`
    * `ScanError`
    * `FileTree.candidates`
    * `FileTree.takes`
    * `FileTree.collect`
-/

namespace CommentLint

------------------------------------------------------------
-- Filters
------------------------------------------------------------

/-
  Which files a scan takes: names that no part of the path may
  have, the suffixes, and the greatest size in kilobytes,
  where it is positive.
-/
structure FileFilter where
  excluded : List String
  extensions : List String
  maxSizeKb : Setting
deriving Repr

namespace FileFilter

/- A suffix in small letters and with its dot. -/
def normalExtension (s : String) : String :=
  let low := lowerString s
  if s.toList.head? = some '.' then low else "." ++ low

/- A filter for suffixes that may lack their dots. -/
def ofExtensions
    (excluded extensions : List String)
    (maxSizeKb : Setting) : FileFilter :=
  ⟨excluded, extensions.map normalExtension, maxSizeKb⟩

/- The suffix that a setting gives. -/
def extensionOf : Setting → Except SettingError String
  | .text s => .ok s
  | _ => .error .notText

/- The name that a setting excludes, if it is one. -/
def excludedName? : Setting → Option String
  | .text s => some s
  | _ => none

/- The filter that settings give. -/
def ofSettings
    (exclude includeExtensions : List Setting)
    (maxSizeKb : Setting) : Except SettingError FileFilter :=
  (includeExtensions.mapM extensionOf).map fun extensions =>
    ofExtensions (exclude.filterMap excludedName?) extensions
      maxSizeKb

/- Whether some part of a path is excluded. -/
def excludes
    (f : FileFilter)
    (parts : List String) : Bool :=
  f.excluded.any fun name => parts.contains name

/- Whether a file is small enough. -/
def allowsSize
    (f : FileFilter)
    (size : Nat) : Except SettingError Bool := do
  let limit ← f.maxSizeKb.compareInt? 0
  let order ← f.maxSizeKb.kilobytes.compareInt? size
  return limit != some .gt || order != some .lt

/- Whether a file's suffix is among those taken. -/
def allowsName
    (f : FileFilter)
    (name : String) : Bool :=
  f.extensions.contains
    (lowerString
      (String.ofList (Path.suffixOfName name.toList)))

end FileFilter

------------------------------------------------------------
-- Errors
------------------------------------------------------------

/- Why a scan fails. -/
inductive ScanError where
| resolve (cause : FileTree.ResolveError)
| access (cause : PathError)
| setting (cause : SettingError)
deriving DecidableEq, Repr

/- The message of an error. -/
def ScanError.message : ScanError → String
  | .resolve cause => cause.message
  | .access cause => cause.message
  | .setting cause => cause.message

------------------------------------------------------------
-- Candidates
------------------------------------------------------------

/- Named values in the order of their names. -/
def inOrder
    {α : Type}
    (items : List (String × α)) : List (String × α) :=
  items.mergeSort fun a b => decide (a.1 ≤ b.1)

/- Whether an entry at a path may be a file of a scan. -/
def mayBeFile
    (f : FileFilter)
    (p : Path)
    (entry : String × Node) : Bool :=
  !entry.2.isDirectory && !f.excludes (p.join entry.1).parts

/- Whether a directory at a path is entered. -/
def isEntered
    (f : FileFilter)
    (p : Path)
    (n : Node) : Bool :=
  n.isDirectory && !f.excludes p.parts && !p.isLong

mutual

/- The paths below a node at a path that may be files. -/
def candidatesBelow
    (f : FileFilter)
    (p : Path) : Node → List Path
  | .directory entries =>
      (inOrder (entries.filter (mayBeFile f p))).map
          (fun e => p.join e.1) ++
        (inOrder (subdirectories f p entries)).flatMap Prod.snd
  | _ => []

/- The same for each directory that is entered among entries. -/
def subdirectories
    (f : FileFilter)
    (p : Path) :
    List (String × Node) → List (String × List Path)
  | [] => []
  | (name, n) :: rest =>
      if isEntered f (p.join name) n then
        (name, candidatesBelow f (p.join name) n) ::
          subdirectories f p rest
      else subdirectories f p rest

end

namespace FileTree

/- The paths below a directory at a path that may be files. -/
def candidates
    (t : FileTree)
    (f : FileFilter)
    (p : Path) : List Path :=
  match t.find p with
  | .ok (_, n) => candidatesBelow f p n
  | .error _ => []

------------------------------------------------------------
-- Collecting
------------------------------------------------------------

/- Whether a scan takes a candidate. -/
def takes
    (t : FileTree)
    (f : FileFilter)
    (p : Path) : Except ScanError Bool :=
  match t.status p with
  | .error cause => .error (.access cause)
  | .ok (some (.file data)) =>
      match f.allowsSize data.length with
      | .error cause => .error (.setting cause)
      | .ok fits => .ok (fits && f.allowsName p.name)
  | .ok _ => .ok false

/- The candidates that a scan takes. -/
def taken
    (t : FileTree)
    (f : FileFilter) :
    List Path → Except ScanError (List Path)
  | [] => .ok []
  | p :: rest =>
      match t.takes f p with
      | .error e => .error e
      | .ok isTaken =>
          (taken t f rest).map fun files =>
            if isTaken then p :: files else files

/- The paths of the files that a scan of a path takes. -/
def collect
    (t : FileTree)
    (f : FileFilter)
    (p : Path) : Except ScanError (List Path) :=
  match t.status p with
  | .error cause => .error (.access cause)
  | .ok (some (.file data)) =>
      match f.allowsSize data.length with
      | .error cause => .error (.setting cause)
      | .ok fits => .ok (if fits then [p] else [])
  | .ok _ =>
      if p.hasNull then .error (.access .nullByte)
      else t.taken f (t.candidates f p)

end FileTree

end CommentLint
