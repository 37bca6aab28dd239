import CommentLint.CommandLine.Run

/-
  The program.

  What a command line may look at is read into a tree first.
  The run itself is a function of that tree, and what it
  writes there is then written to the disk.  A link stands in
  the tree with the file that it leads to in the end; one that
  leads nowhere is left out.

  Key definitions include:
    * `Disk.treeFor`
    * `main`
-/

namespace CommentLint

namespace Disk

------------------------------------------------------------
-- Reading
------------------------------------------------------------

/- The place of an absolute path. -/
def placeOf (path : String) : Place :=
  (Path.ofString path).names

/- Put a directory into a tree unless it is there. -/
def addDirectory
    (t : FileTree)
    (path : String) : FileTree :=
  let place := placeOf path
  match t.root.at? place with
  | some (.directory _) => t
  | _ => t.putAt place (.directory [])

/- Put the bytes of a file into a tree. -/
def addFile
    (t : FileTree)
    (path : String) : IO FileTree := do
  let data ← IO.FS.readBinFile ⟨path⟩
  return t.putAt (placeOf path) (.file data.toList)

/- Put a link and the file that it leads to into a tree. -/
def addLink
    (t : FileTree)
    (path : String) : IO FileTree := do
  let real ← IO.FS.realPath ⟨path⟩
  let t := t.putAt (placeOf path) (.link real.toString)
  match (← real.metadata).type with
  | .file => addFile t real.toString
  | _ => return t

/- Put what a scan may take below a directory into a tree. -/
partial def addBelow
    (f : FileFilter)
    (t : FileTree)
    (path : String) : IO FileTree := do
  let real ← IO.FS.realPath ⟨path⟩
  let mut t := addDirectory t path
  for e in ← real.readDir do
    let entry := e.path.toString
    let known := t
    t ←
      try
        if f.excluded.contains e.fileName then pure known
        else
          match (← e.path.symlinkMetadata).type with
          | .dir => addBelow f known entry
          | .file =>
              if f.allowsName e.fileName then addFile known entry
              else pure known
          | .symlink =>
              if f.allowsName e.fileName then addLink known entry
              else pure known
          | .other => pure known
      catch _ => pure known
  return t

/- Put a path's last link into a tree when its place is another. -/
def addAlias
    (t : FileTree)
    (path real : String) : FileTree :=
  let place := (t.absolute (Path.ofString path)).names
  if place = placeOf real then t
  else t.putAt place (.link real)

/- Put what a named path leads to into a tree, if anything. -/
def addNamed
    (f? : Option FileFilter)
    (t : FileTree)
    (path : String) : IO FileTree := do
  try
    let real ← IO.FS.realPath ⟨path⟩
    let t := addAlias t path real.toString
    match f?, (← real.metadata).type with
    | some f, .dir => addBelow f t real.toString
    | none, .dir => return addDirectory t real.toString
    | _, _ => addFile t real.toString
  catch _ => return t

------------------------------------------------------------
-- Trees for Command Lines
------------------------------------------------------------

/- The filter of the files that a scan takes, if it starts. -/
def filterOf?
    (t : FileTree)
    (o : ScanOptions) : Option FileFilter := do
  let c ← (t.loadConfig o.config?).toOption
  let c ← (c.merge o).toOption
  (c.request []).filter.toOption

/- The tree of the directory that is worked in. -/
def workTree : IO FileTree := do
  let place := placeOf (← IO.currentDir).toString
  return {
    root := Node.put (.directory []) place (.directory [])
    workplace := place
  }

/- Put the configuration that is named into a tree. -/
def addConfig
    (t : FileTree) :
    Option (Given String) → IO FileTree
  | none => addNamed none t defaultConfigName
  | some (.value path) => addNamed none t path
  | some .nothing => return t

/- What a command line may look at. -/
def treeFor (words : List String) : IO FileTree := do
  let t ← workTree
  match CommandLine.Invocation.parse words with
  | .error _ => return t
  | .ok ⟨_, .rules config?⟩ => addConfig t config?
  | .ok ⟨_, .scan o⟩ =>
      let t ← addConfig t o.config?
      match filterOf? t o with
      | some f => addNamed (some f) t o.path
      | none => return t

------------------------------------------------------------
-- Writing
------------------------------------------------------------

/- A tree in which every place is below the workplace. -/
def fromRoot (t : FileTree) : FileTree :=
  { t with workplace := [] }

/- Write the files of a tree that another does not have so. -/
def writeChanges
    (before after : FileTree) : IO Unit := do
  for (place, data) in (fromRoot before).changes (fromRoot after)
  do
    IO.FS.createDirAll ⟨(FileTree.pathOf place.dropLast).text⟩
    IO.FS.writeBinFile ⟨(FileTree.pathOf place).text⟩
      (ByteArray.mk data.toArray)

end Disk

end CommentLint

/- Run a command line on the files that are there. -/
def main (words : List String) : IO UInt32 := do
  let t ← CommentLint.Disk.treeFor words
  match t.run words with
  | .error fault =>
      IO.eprintln fault.message
      return 1
  | .ok o =>
      CommentLint.Disk.writeChanges t o.tree
      IO.print o.stdout
      IO.eprint o.stderr
      return UInt32.ofNat o.exitCode
