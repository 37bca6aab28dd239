import CommentLint.Path
import CommentLint.Text.Quoted
import CommentLint.Text.Utf8

/-
  Trees of files, directories and symbolic links.

  A place is the list of names that lead to it from the root.
  Entries of a directory are looked up by name.

  Key definitions include:
    * `Node`
    * `Place`
    * `Node.at?`
    * `Node.put`
    * `FileTree`
    * `SystemError`
    * `PathError`
-/

namespace CommentLint

------------------------------------------------------------
-- Nodes
------------------------------------------------------------

/- A file, a directory of named entries, or a symbolic link. -/
inductive Node where
| file (data : Bytes)
| directory (entries : List (String × Node))
| link (target : String)
deriving Repr, Inhabited

/- The names that lead from the root to a place. -/
abbrev Place :=
  List String

namespace Node

/- The entry of a name in a directory. -/
def entry?
    (n : Node)
    (name : String) : Option Node :=
  match n with
  | .directory entries => entries.lookup name
  | _ => none

/- The node at a place below a node, links not being followed. -/
def at? (n : Node) : Place → Option Node
  | [] => some n
  | name :: rest => (n.entry? name).bind fun m => m.at? rest

/- Replace the entry of a name, or add it as the last. -/
def putEntry
    (name : String)
    (n : Node) :
    List (String × Node) → List (String × Node)
  | [] => [(name, n)]
  | (m, old) :: rest =>
      if m = name then (m, n) :: rest
      else (m, old) :: putEntry name n rest

/-
  Put a node at a place below a node.  Directories on the way
  that are missing are made.
-/
def put
    (new : Node) :
    Place → Node → Node
  | [], _ => new
  | name :: rest, n =>
      let entries :=
        match n with
        | .directory entries => entries
        | _ => []
      .directory
        (putEntry name
          (put new rest
            ((entries.lookup name).getD (.directory [])))
          entries)

/- Whether a node is a directory. -/
def isDirectory : Node → Bool
  | .directory _ => true
  | _ => false

mutual

/- The files below a node with their places, links left out. -/
def files
    (place : Place) : Node → List (Place × Bytes)
  | .file data => [(place, data)]
  | .directory entries => entryFiles place entries
  | .link _ => []

/- The files below entries of a directory. -/
def entryFiles
    (place : Place) :
    List (String × Node) → List (Place × Bytes)
  | [] => []
  | (name, n) :: rest =>
      files (place ++ [name]) n ++ entryFiles place rest

end

end Node

------------------------------------------------------------
-- Trees
------------------------------------------------------------

/- A tree from its root, with the place that is worked in. -/
structure FileTree where
  root : Node := .directory []
  workplace : Place := []
deriving Repr, Inhabited

------------------------------------------------------------
-- Errors
------------------------------------------------------------

/- Why the system refuses a path. -/
inductive SystemError where
| noEntry
| exists
| notDirectory
| isDirectory
| nameTooLong
| tooManyLinks
deriving DecidableEq, Repr

namespace SystemError

/- The number of an error. -/
def number : SystemError → Nat
  | .noEntry => 2
  | .exists => 17
  | .notDirectory => 20
  | .isDirectory => 21
  | .nameTooLong => 36
  | .tooManyLinks => 40

/- What an error says. -/
def text : SystemError → String
  | .noEntry => "No such file or directory"
  | .exists => "File exists"
  | .notDirectory => "Not a directory"
  | .isDirectory => "Is a directory"
  | .nameTooLong => "File name too long"
  | .tooManyLinks => "Too many levels of symbolic links"

/- The message of an error about a path. -/
def message
    (e : SystemError)
    (path : String) : String :=
  "[Errno " ++ e.number.repr ++ "] " ++ e.text ++ ": " ++
    quoted path

end SystemError

/- What is said of things that are nested too deep. -/
def tooDeepText : String :=
  "maximum recursion depth exceeded"

/-
  Why a path cannot be used: it holds a null character, too
  many directories would have to be made for it, or the system
  refuses it.
-/
inductive PathError where
| nullByte
| tooDeep
| system (cause : SystemError) (path : Path)
deriving DecidableEq, Repr

namespace PathError

/- What is said of a path with a null character. -/
def nullByteText : String :=
  "embedded null byte"

/- The message of an error about a path. -/
def message : PathError → String
  | .nullByte => nullByteText
  | .tooDeep => tooDeepText ++ " while calling a Python object"
  | .system cause path => cause.message path.text

end PathError

end CommentLint
