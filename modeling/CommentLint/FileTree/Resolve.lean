import CommentLint.FileTree.Lookup

/-
  Resolving paths.

  A path is resolved from name to name, links being replaced
  by what their targets resolve to.  Names that lead nowhere
  are kept, and `..` takes back the name before it.  A link
  that was resolved before is not resolved again.  One that is
  met while its own target is being resolved ends the work:
  it is kept, and so is the text behind it.

  Key definitions include:
    * `Resolution`
    * `FileTree.resolveNames`
    * `FileTree.resolveLink`
    * `FileTree.resolve`
-/

namespace CommentLint

------------------------------------------------------------
-- Resolutions
------------------------------------------------------------

/-
  How resolving ends: done, at a loop of links, at a null, or
  in targets that are nested too deep.
-/
inductive Resolution where
| done (path : Path)
| looped (path : Path)
| nullByte
| tooDeep
deriving DecidableEq, Repr

/-
  What is known of a link: its target is being resolved, or
  has been.
-/
inductive LinkState where
| pending
| resolved (path : Path)
deriving DecidableEq, Repr

/- Links that were met, by the paths at which they were met. -/
abbrev KnownLinks :=
  List (Path × LinkState)

/- The path of some pieces of a text, as they are written. -/
def pathOfPieces (rest : List String) : Path :=
  Path.ofString (String.intercalate "/" rest)

/- A resolution with the text that follows it. -/
def Resolution.followedBy
    (r : Resolution)
    (rest : List String) : Resolution :=
  match r with
  | .looped path => .looped (path.append (pathOfPieces rest))
  | r => r

/- The path above a resolved path; `..` leads out of the workplace. -/
def Path.above (p : Path) : Path :=
  match p.anchor, p.names.getLast? with
  | .here, none => p.join ".."
  | .here, some ".." => p.join ".."
  | _, _ => p.parent

namespace FileTree

------------------------------------------------------------
-- Names and Links
------------------------------------------------------------

/-
  Resolve names from a resolved path.  `enter` resolves the
  target of a link that was not met before, from the path
  that leads to its directory.
-/
def resolveNames
    (t : FileTree)
    (enter :
      KnownLinks → Path → Path → String →
        KnownLinks × Resolution) :
    KnownLinks → Path → List String → KnownLinks × Resolution
  | known, here, [] => (known, .done here)
  | known, here, name :: rest =>
      if !Path.isName name.toList then
        resolveNames t enter known here rest
      else if name = ".." then
        resolveNames t enter known here.above rest
      else if Path.nameHasNull name then (known, .nullByte)
      else
        let p := here.join name
        match t.linkAt? p, known.lookup p with
        | none, _ => resolveNames t enter known p rest
        | some _, some (.resolved q) =>
            resolveNames t enter known q rest
        | some _, some .pending =>
            (known, (Resolution.looped p).followedBy rest)
        | some target, none =>
            match enter ((p, .pending) :: known) here p target with
            | (known, .done q) =>
                resolveNames t enter ((p, .resolved q) :: known) q
                  rest
            | (known, r) => (known, r.followedBy rest)

/-
  Resolve the target of a link at a path, from the path of its
  directory; the number bounds how deep targets are nested.
-/
def resolveLink
    (t : FileTree) :
    Nat → KnownLinks → Path → Path → String →
      KnownLinks × Resolution
  | 0, known, _, _, _ => (known, .tooDeep)
  | depth + 1, known, here, _, target =>
      t.resolveNames (t.resolveLink depth) known
        (if (Path.ofString target).isAbsolute then ⟨.root, []⟩
          else here)
        (pieces target)

------------------------------------------------------------
-- Paths
------------------------------------------------------------

/- How deep targets of links may be nested in each other. -/
def nestingLimit : Nat :=
  987

/- How resolving a path ends. -/
def resolution
    (t : FileTree)
    (p : Path) : Resolution :=
  (t.resolveNames (t.resolveLink nestingLimit) []
    ⟨if p.isAbsolute then .root else .here, []⟩ p.names).2

/- The absolute path of a place. -/
def pathOf (place : Place) : Path :=
  ⟨.root, place⟩

/- The absolute path of a path, `..` being taken away. -/
def absolute
    (t : FileTree)
    (p : Path) : Path :=
  ((pathOf t.workplace).append p).normal

/- Why a path cannot be resolved. -/
inductive ResolveError where
| nullByte
| tooDeep
| loop (path : Path)
deriving DecidableEq, Repr

/- The message of an error. -/
def ResolveError.message : ResolveError → String
  | .nullByte => PathError.nullByteText
  | .tooDeep => tooDeepText
  | .loop path => "Symlink loop from " ++ quoted path.text

/- An absolute path, unless links loop there. -/
def unlooped
    (t : FileTree)
    (p : Path) : Except ResolveError Path :=
  match t.find p with
  | .error .tooManyLinks => .error (.loop p)
  | _ => .ok p

/-
  The absolute path that a path stands for.  Where a loop
  ended the work, the text that was kept ends at a null.
-/
def resolve
    (t : FileTree)
    (p : Path) : Except ResolveError Path :=
  match t.resolution p with
  | .nullByte => .error .nullByte
  | .tooDeep => .error .tooDeep
  | .done q => t.unlooped (t.absolute q)
  | .looped q => t.unlooped (t.absolute q).untilNull

end FileTree

end CommentLint
