/-
  Path names.

  A path name is an anchor and a list of names.  Reading one
  drops empty names and `.`; `..` stays.  The text of the
  path that names nothing is `.`.

  Key definitions include:
    * `Path`
    * `Path.ofString`
    * `Path.text`
    * `Path.parts`
    * `Path.name`
    * `Path.append`
    * `Path.normal`
    * `Path.suffix`
-/

namespace CommentLint

------------------------------------------------------------
-- Path Names
------------------------------------------------------------

/-
  Where a path starts.  Exactly two leading slashes are kept
  apart from one; more of them count as one.
-/
inductive Anchor where
| here
| root
| doubleRoot
deriving DecidableEq, Repr

/- The text of an anchor. -/
def Anchor.text : Anchor → String
  | .here => ""
  | .root => "/"
  | .doubleRoot => "//"

/- A path name without empty names and without `.`. -/
structure Path where
  anchor : Anchor
  names : List String
deriving DecidableEq, Repr

namespace Path

------------------------------------------------------------
-- Reading and Writing
------------------------------------------------------------

/- The anchor of a path text. -/
def anchorOf : List Char → Anchor
  | '/' :: '/' :: '/' :: _ => .root
  | '/' :: '/' :: _ => .doubleRoot
  | '/' :: _ => .root
  | _ => .here

/- Whether a name counts in a path. -/
def isName (s : List Char) : Bool :=
  !s.isEmpty && s != ['.']

/- Read a path name. -/
def ofString (s : String) : Path :=
  let text := s.toList
  { anchor := anchorOf text
    names :=
      ((text.splitOn '/').filter isName).map String.ofList }

/- The text of a path name. -/
def text (p : Path) : String :=
  match p.anchor, p.names with
  | .here, [] => "."
  | a, names => a.text ++ String.intercalate "/" names

------------------------------------------------------------
-- Parts
------------------------------------------------------------

/- The components of a path, an anchor being the first of them. -/
def parts (p : Path) : List String :=
  match p.anchor with
  | .here => p.names
  | a => a.text :: p.names

/- Whether a path starts at the root. -/
def isAbsolute (p : Path) : Bool :=
  p.anchor != .here

/- The path of an entry below a path. -/
def join
    (p : Path)
    (name : String) : Path :=
  { p with names := p.names ++ [name] }

/- The last name of a path, or no text. -/
def name (p : Path) : String :=
  p.names.getLast?.getD ""

/- The path above a path. -/
def parent (p : Path) : Path :=
  { p with names := p.names.dropLast }

/- The names that lead from a path to one that lies below it. -/
def namesTo?
    (base p : Path) : Option (List String) :=
  if base.anchor == p.anchor && base.names.isPrefixOf p.names
  then some (p.names.drop base.names.length)
  else none

------------------------------------------------------------
-- Joining
------------------------------------------------------------

/- A path that starts at another; an absolute one stands alone. -/
def append (p q : Path) : Path :=
  if q.isAbsolute then q
  else { p with names := p.names ++ q.names }

/-
  Add a name to names that are given last first; `..` takes
  back the name before it.
-/
def pushName
    (done : List String)
    (name : String) : List String :=
  if name = ".." then done.drop 1 else name :: done

/- An absolute path without `..`; above the root is the root. -/
def normal (p : Path) : Path :=
  { p with names := (p.names.foldl pushName []).reverse }

------------------------------------------------------------
-- Null Characters
------------------------------------------------------------

/- Whether a name holds a null character. -/
def nameHasNull (name : String) : Bool :=
  name.toList.contains '\x00'

/- Whether a path holds a null character. -/
def hasNull (p : Path) : Bool :=
  p.names.any nameHasNull

/- A path up to its first null character. -/
def untilNull (p : Path) : Path :=
  ofString (String.ofList (p.text.toList.takeWhile (· != '\x00')))

------------------------------------------------------------
-- Suffixes
------------------------------------------------------------

/-
  The suffix of a name: from its last dot on, when that dot
  is neither its first character nor its last.
-/
def suffixOfName (name : List Char) : List Char :=
  let tail := (name.reverse.takeWhile (· != '.')).reverse
  let before := name.length - tail.length
  if tail.isEmpty || before ≤ 1 then [] else '.' :: tail

/- The suffix of a path's last name. -/
def suffix (p : Path) : String :=
  String.ofList (suffixOfName p.name.toList)

end Path

end CommentLint
