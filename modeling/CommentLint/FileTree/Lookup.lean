import CommentLint.FileTree.Basic

/-
  Looking up paths in a tree.

  A lookup goes from name to name.  `..` leads to the
  directory above, a link to its target, and anything but a
  directory ends the way.  At most forty links are followed,
  and neither a name nor a path may be too long.

  Key definitions include:
    * `Purpose`
    * `FileTree.advance`
    * `FileTree.follow`
    * `FileTree.find`
    * `FileTree.status`
    * `FileTree.read`
-/

namespace CommentLint

------------------------------------------------------------
-- Limits
------------------------------------------------------------

/- The greatest number of bytes in a name. -/
def nameLimit : Nat :=
  255

/- The greatest number of bytes in the text of a path. -/
def pathLimit : Nat :=
  4095

/- The number of links that a lookup may follow. -/
def linkLimit : Nat :=
  40

/- Whether a name is too long for an entry. -/
def isLongName (name : String) : Bool :=
  decide (nameLimit < Utf8.size name.toList)

/- Whether a path is too long to be looked up. -/
def Path.isLong (p : Path) : Bool :=
  decide (pathLimit < Utf8.size p.text.toList)

------------------------------------------------------------
-- Link Targets
------------------------------------------------------------

/- The names between the slashes of a text, empty ones among them. -/
def pieces (text : String) : List String :=
  (text.toList.splitOn '/').map String.ofList

/-
  The names of a link's target.  An empty name at the end is
  kept: it says that a slash follows the last of the others.
-/
def targetNames (target : String) : List String :=
  let all := pieces target
  all.filter (· != "") ++
    (if all.getLast? = some "" then [""] else [])

/- The place where the names of a path start. -/
def startOf
    (path : String)
    (here : Place) : Place :=
  if (Path.ofString path).isAbsolute then [] else here

------------------------------------------------------------
-- Lookups
------------------------------------------------------------

/-
  What a lookup is for.  A link at the end of the path is
  followed or kept as it is.  A file is created through links,
  but not under a name that a slash follows.
-/
inductive Purpose where
| follow
| keep
| create
deriving DecidableEq, Repr

/- What a path leads to: a node, or a free name in a directory. -/
inductive Target where
| node (place : Place) (n : Node)
| free (place : Place)
deriving Repr

/- How far a lookup gets until it meets a link. -/
inductive Advance where
| arrived (target : Target)
| failed (cause : SystemError)
| redirected
    (place : Place)
    (target : String)
    (rest : List String)
deriving Repr

/- Whether a file was to be created under a name that a slash follows. -/
def createsDirectory
    (purpose : Purpose)
    (rest : List String) : Bool :=
  purpose == .create && rest == [""]

namespace FileTree

/-
  Go along names from a directory.  The last name may be a
  link that is kept, or it may be free.
-/
def advance
    (root : Node)
    (purpose : Purpose)
    (here : Place) :
    List String → Advance
  | [] =>
      match root.at? here with
      | some n => .arrived (.node here n)
      | none => .failed .noEntry
  | name :: rest =>
      if !Path.isName name.toList then
        advance root purpose here rest
      else if name = ".." then
        advance root purpose here.dropLast rest
      else if createsDirectory purpose rest then
        .failed .isDirectory
      else if isLongName name then .failed .nameTooLong
      else
        match (root.at? here).bind fun n => n.entry? name with
        | none =>
            if rest.isEmpty then
              .arrived (.free (here ++ [name]))
            else .failed .noEntry
        | some (.directory _) =>
            advance root purpose (here ++ [name]) rest
        | some (.file data) =>
            if rest.isEmpty then
              .arrived (.node (here ++ [name]) (.file data))
            else .failed .notDirectory
        | some (.link target) =>
            if rest.isEmpty && purpose == .keep then
              .arrived (.node (here ++ [name]) (.link target))
            else .redirected here target rest

/- Go along names and links; the first argument bounds the links. -/
def follow
    (root : Node)
    (purpose : Purpose) :
    Nat → Place → List String → Except SystemError Target
  | 0, _, _ => .error .tooManyLinks
  | links + 1, here, names =>
      match advance root purpose here names with
      | .arrived target => .ok target
      | .failed cause => .error cause
      | .redirected place target rest =>
          follow root purpose links (startOf target place)
            (targetNames target ++ rest)

/- What a path leads to. -/
def target
    (t : FileTree)
    (purpose : Purpose)
    (p : Path) : Except SystemError Target :=
  if p.isLong then .error .nameTooLong
  else
    follow t.root purpose (linkLimit + 1)
      (if p.isAbsolute then [] else t.workplace) p.names

/- The node that a path leads to, with its place. -/
def find
    (t : FileTree)
    (p : Path) : Except SystemError (Place × Node) :=
  match t.target .follow p with
  | .ok (.node place n) => .ok (place, n)
  | .ok (.free _) => .error .noEntry
  | .error cause => .error cause

/- The target of the link at a path, if a link is there. -/
def linkAt?
    (t : FileTree)
    (p : Path) : Option String :=
  match t.target .keep p with
  | .ok (.node _ (.link target)) => some target
  | _ => none

------------------------------------------------------------
-- Questions
------------------------------------------------------------

/-
  The node that a path leads to, if any.  Only a path that is
  too long is an error.
-/
def status
    (t : FileTree)
    (p : Path) : Except PathError (Option Node) :=
  if p.hasNull then .ok none
  else
    match t.find p with
    | .ok (_, n) => .ok (some n)
    | .error .nameTooLong => .error (.system .nameTooLong p)
    | .error _ => .ok none

/- Whether a path leads to a file. -/
def isFile
    (t : FileTree)
    (p : Path) : Except PathError Bool :=
  (t.status p).map fun n? =>
    match n? with
    | some (.file _) => true
    | _ => false

/- Whether a path leads to a directory. -/
def isDirectory
    (t : FileTree)
    (p : Path) : Except PathError Bool :=
  (t.status p).map fun n? =>
    match n? with
    | some (.directory _) => true
    | _ => false

/- Whether a path leads anywhere. -/
def has
    (t : FileTree)
    (p : Path) : Except PathError Bool :=
  (t.status p).map Option.isSome

/- The bytes of the file that a path leads to. -/
def read
    (t : FileTree)
    (p : Path) : Except PathError Bytes :=
  if p.hasNull then .error .nullByte
  else
    match t.find p with
    | .ok (_, .file data) => .ok data
    | .ok _ => .error (.system .isDirectory p)
    | .error cause => .error (.system cause p)

end FileTree

end CommentLint
