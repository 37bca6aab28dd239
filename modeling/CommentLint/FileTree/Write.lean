import CommentLint.FileTree.Lookup

/-
  Writing into a tree.

  Key definitions include:
    * `FileTree.makeDirectory`
    * `FileTree.makeDirectories`
    * `FileTree.write`
    * `FileTree.changes`
-/

namespace CommentLint

namespace FileTree

------------------------------------------------------------
-- Directories
------------------------------------------------------------

/- Put a node at a place. -/
def putAt
    (t : FileTree)
    (place : Place)
    (n : Node) : FileTree :=
  { t with root := Node.put n place t.root }

/- Make a directory whose name must be free. -/
def makeDirectory
    (t : FileTree)
    (p : Path) : Except SystemError FileTree :=
  match t.target .keep p with
  | .ok (.free place) => .ok (t.putAt place (.directory []))
  | .ok (.node _ _) => .error .exists
  | .error cause => .error cause

/- Accept a failure when the directory is there all the same. -/
def acceptPresent
    (t : FileTree)
    (p : Path)
    (cause : SystemError) : Except PathError FileTree :=
  if cause = .noEntry then .error (.system cause p)
  else
    match t.isDirectory p with
    | .ok true => .ok t
    | .ok false => .error (.system cause p)
    | .error e => .error e

/- How many directories may be made for one path. -/
def makeLimit : Nat :=
  987

/-
  Make a directory and those above it that are missing.  The
  first argument bounds their number, and the names of the
  path are given reversed.
-/
def makeDirectoriesFor
    (t : FileTree)
    (anchor : Anchor) :
    Nat → List String → Except PathError FileTree
  | 0, _ => .error .tooDeep
  | _ + 1, [] =>
      match t.makeDirectory ⟨anchor, []⟩ with
      | .ok t => .ok t
      | .error cause => acceptPresent t ⟨anchor, []⟩ cause
  | limit + 1, name :: above =>
      let p : Path := ⟨anchor, (name :: above).reverse⟩
      match t.makeDirectory p with
      | .ok t => .ok t
      | .error .noEntry =>
          match makeDirectoriesFor t anchor limit above with
          | .error e => .error e
          | .ok t =>
              match t.makeDirectory p with
              | .ok t => .ok t
              | .error cause => acceptPresent t p cause
      | .error cause => acceptPresent t p cause

/- Make a directory and those above it that are missing. -/
def makeDirectories
    (t : FileTree)
    (p : Path) : Except PathError FileTree :=
  if p.hasNull then .error .nullByte
  else
    makeDirectoriesFor t p.anchor makeLimit p.names.reverse

------------------------------------------------------------
-- Files
------------------------------------------------------------

/- Write a file, which may be there already. -/
def write
    (t : FileTree)
    (p : Path)
    (data : Bytes) : Except PathError FileTree :=
  if p.hasNull then .error .nullByte
  else
    match t.target .create p with
    | .ok (.free place) => .ok (t.putAt place (.file data))
    | .ok (.node place (.file _)) =>
        .ok (t.putAt place (.file data))
    | .ok (.node _ _) => .error (.system .isDirectory p)
    | .error cause => .error (.system cause p)

/- The files below the workplace, by their names from there. -/
def workFiles (t : FileTree) : List (Place × Bytes) :=
  match t.root.at? t.workplace with
  | some n => n.files []
  | none => []

/- The files below the workplace that another tree does not have so. -/
def changes
    (before after : FileTree) : List (Place × Bytes) :=
  let old := before.workFiles
  after.workFiles.filter fun (place, data) =>
    old.lookup place != some data

end FileTree

end CommentLint
