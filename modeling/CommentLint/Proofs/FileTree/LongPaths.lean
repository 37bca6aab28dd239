import CommentLint.Proofs.FileTree.Resolving

/-
  Paths that are too long to be looked up.

  The text of a path grows with each of its names, and a path
  of too many names cannot be looked up.  Links may still lead
  there, for each of their targets is short.  Resolving then
  goes along the names of directories, and passes over a link
  that it cannot read as over any other name.  Opening a file
  goes through the link, so that `..` behind it leads from one
  directory in the one case and from another in the other.

  Key definitions include:
    * `Node.nested`
    * `FileTree.deepTree`

  Key results include:
    * `FileTree.size_text_pathOf`
    * `FileTree.targetNames_text`
    * `FileTree.advance_append_of_hasDirectory`
    * `FileTree.resolveNames_append_of_hasDirectory`
    * `FileTree.resolveNames_of_linkAt?`
    * `FileTree.find_of_link`
    * `FileTree.resolve_of_link`
-/

namespace CommentLint

------------------------------------------------------------
-- Sizes of Texts
------------------------------------------------------------

/- The size of a text is that of its parts. -/
theorem Utf8.size_append (a b : List Char) :
    size (a ++ b) = size a + size b := by
  induction a with
  | nil => exact (Nat.zero_add _).symm
  | cons c a ih =>
      change c.utf8Size + size (a ++ b) = c.utf8Size + size a + _
      rw [ih, Nat.add_assoc]

/- The size of one character over and over. -/
theorem Utf8.size_replicate
    (n : Nat)
    (c : Char) :
    size (List.replicate n c) = n * c.utf8Size := by
  induction n with
  | zero => simp [size]
  | succ n ih =>
      have hHead :
          size (List.replicate (n + 1) c) =
            c.utf8Size + size (List.replicate n c) :=
        rfl
      rw [hHead, ih, Nat.succ_mul, Nat.add_comm]

/- The size of names and of a slash in front of each. -/
def slashedSize : List String → Nat
  | [] => 0
  | name :: rest => Utf8.size name.toList + 1 + slashedSize rest

/- One name over and over adds the same size each time. -/
theorem slashedSize_replicate_append
    (n : Nat)
    (name : String)
    (rest : List String) :
    slashedSize (List.replicate n name ++ rest) =
      n * (Utf8.size name.toList + 1) + slashedSize rest := by
  induction n with
  | zero => simp
  | succ n ih =>
      rw [List.replicate_succ, List.cons_append, slashedSize, ih,
        Nat.succ_mul]
      omega

/- Names with a slash in front of each have that size. -/
theorem size_slash_intercalate
    {names : List String}
    (hNil : names ≠ []) :
    Utf8.size ('/' :: ['/'].intercalate (names.map String.toList)) =
      slashedSize names := by
  induction names with
  | nil => exact absurd rfl hNil
  | cons name rest ih =>
      cases rest with
      | nil =>
          have hSlash : '/'.utf8Size = 1 := by decide
          simp [slashedSize, Utf8.size, hSlash, Nat.add_comm]
      | cons next rest =>
          have hRest := ih (List.cons_ne_nil next rest)
          have hSplit :
              '/' ::
                  ['/'].intercalate
                    ((name :: next :: rest).map String.toList) =
                ('/' :: name.toList) ++
                  '/' ::
                    ['/'].intercalate
                      ((next :: rest).map String.toList) := by
            simp
          have hName :
              Utf8.size ('/' :: name.toList) =
                Utf8.size name.toList + 1 :=
            Nat.add_comm _ _
          rw [hSplit, Utf8.size_append, hRest, hName]
          rfl

------------------------------------------------------------
-- Nested Directories
------------------------------------------------------------

namespace Node

/- A node in directories of one name, each inside the next. -/
def nested
    (name : String)
    (n : Node) : Nat → Node
  | 0 => n
  | depth + 1 => .directory [(name, nested name n depth)]

section Nested

variable {root n : Node}
variable {name : String}
variable {place rest : Place}

/- What stands in the innermost of them. -/
theorem at?_nested
    (name : String)
    (n : Node)
    (depth : Nat)
    (place : Place) :
    (nested name n depth).at?
        (List.replicate depth name ++ place) =
      n.at? place := by
  induction depth with
  | zero => rfl
  | succ depth ih =>
      rw [List.replicate_succ, List.cons_append, nested, at?,
        entry?, List.lookup_cons_self]
      exact ih

/- They are well-formed if what is in them is. -/
theorem wellFormed_nested
    (hName : IsEntryName name)
    (h : n.WellFormed)
    (depth : Nat) :
    (nested name n depth).WellFormed := by
  induction depth with
  | zero => exact h
  | succ depth ih =>
      exact
        .directory (by simp)
          (by simpa using hName) (by simpa using ih)

/- On the way to a directory there are directories. -/
theorem HasDirectory.of_append
    (h : root.HasDirectory (place ++ rest)) :
    root.HasDirectory place := by
  cases rest with
  | nil => rwa [List.append_nil] at h
  | cons name rest =>
      rcases h with ⟨entries, hPlace⟩
      exact hasDirectory_of_at?_append hPlace

end Nested

end Node

namespace FileTree

open Node

/- The size of the path of a place. -/
theorem size_text_pathOf
    {place : Place}
    (hNil : place ≠ []) :
    Utf8.size (pathOf place).text.toList = slashedSize place := by
  have hRoot : Anchor.root.text.toList = ['/'] := by
    decide
  have hText := Path.toList_text (pathOf place) hNil
  rw [hText, ← size_slash_intercalate hNil]
  change Utf8.size (Anchor.root.text.toList ++ _) = _
  rw [hRoot]
  rfl

------------------------------------------------------------
-- Targets of Plain Names
------------------------------------------------------------

section Targets

variable {names : List String}

/- The pieces of the text of names are the names. -/
theorem pieces_text
    (hNil : names ≠ [])
    (h : (Path.mk .here names).HasPlainNames) :
    pieces (Path.mk .here names).text = names := by
  unfold pieces
  rw [Path.toList_text _ hNil]
  change
    ((['/'].intercalate (names.map String.toList)).splitOn
        '/').map String.ofList =
      _
  rw [Path.splitOn_intercalate_names hNil
    fun name hMem => (h name hMem).2]
  simp [Function.comp_def]

/- A lookup goes along all of them. -/
theorem targetNames_text
    (hNil : names ≠ [])
    (h : (Path.mk .here names).HasPlainNames) :
    targetNames (Path.mk .here names).text = names := by
  have hNe : ∀ name ∈ names, name ≠ "" := by
    rintro _ hMem rfl
    exact absurd (h "" hMem).1 (by decide)
  have hLast : names.getLast? ≠ some "" := by
    intro hLast
    exact hNe "" (List.mem_of_getLast? hLast) rfl
  unfold targetNames
  rw [pieces_text hNil h]
  simpa [hLast] using hNe

/- They start where the link is. -/
theorem startOf_text
    (h : (Path.mk .here names).HasPlainNames)
    (here : Place) :
    startOf (Path.mk .here names).text here = here := by
  unfold startOf
  rw [Path.ofString_text h]
  rfl

end Targets

------------------------------------------------------------
-- Looking Up Names
------------------------------------------------------------

section Lookups

variable {root : Node}
variable {here : Place}
variable {names rest : List String}
variable {name target : String}

/- A lookup goes along the names of directories. -/
theorem advance_append_of_hasDirectory
    (here : Place)
    (hRoot : root.WellFormed)
    (h : root.HasDirectory (here ++ names))
    (rest : List String) :
    advance root .follow here (names ++ rest) =
      advance root .follow (here ++ names) rest := by
  rcases h with ⟨entries, hEntry⟩
  exact
    advance_append_of_arrived
      (advance_of_at? .follow here hRoot (by decide) hEntry
        (Or.inr (by simp)))

/- From a directory `..` leads to the one above. -/
theorem advance_up
    (root : Node)
    (here : Place)
    (rest : List String) :
    advance root .follow here (".." :: rest) =
      advance root .follow here.dropLast rest := by
  rw [advance, if_neg (by decide), if_pos rfl]

/- A lookup stops at a link, with the names that follow. -/
theorem advance_of_link
    (hRoot : root.WellFormed)
    (h : root.at? (here ++ [name]) = some (.link target))
    (rest : List String) :
    advance root .follow here (name :: rest) =
      .redirected here target rest := by
  have hName := hRoot.isEntryName h
  rw [advance, if_neg (by simp [hName.isName]),
    if_neg hName.ne_up, if_neg (by simp [createsDirectory]),
    if_neg (by simp [hName.isLong]), entry?_of_at? h]
  simp

end Lookups

------------------------------------------------------------
-- Resolving Names
------------------------------------------------------------

section Resolving

variable {t : FileTree}
variable {enter :
  KnownLinks → Path → Path → String → KnownLinks × Resolution}
variable {known known' : KnownLinks}
variable {place : Place}
variable {names : List String}
variable {name target : String}
variable {n : Node}

/- Names of directories are resolved to themselves. -/
theorem resolveNames_append_of_hasDirectory
    (place : Place)
    (hTree : t.WellFormed)
    (h : t.root.HasDirectory (place ++ names))
    (rest : List String) :
    t.resolveNames enter known (pathOf place) (names ++ rest) =
      t.resolveNames enter known (pathOf (place ++ names))
        rest := by
  induction names generalizing place with
  | nil => rw [List.nil_append, List.append_nil]
  | cons name names ih =>
      rw [List.append_cons] at h ⊢
      rcases h.of_append with ⟨entries, hEntry⟩
      rw [List.cons_append,
        resolveNames_of_linkAt?_eq_none
          (hTree.root.isEntryName hEntry)
          (linkAt?_pathOf_eq_none hTree hEntry (by simp))]
      exact ih _ h

/- So is the name of anything whose path is too long. -/
theorem resolveNames_of_isLong
    (hName : IsEntryName name)
    (hLong : (pathOf (place ++ [name])).isLong = true)
    (rest : List String) :
    t.resolveNames enter known (pathOf place) (name :: rest) =
      t.resolveNames enter known (pathOf (place ++ [name]))
        rest :=
  resolveNames_of_linkAt?_eq_none hName (linkAt?_of_isLong hLong)

/- The name before it is taken back by `..`. -/
theorem resolveNames_up
    (t : FileTree)
    (place : Place)
    (rest : List String) :
    t.resolveNames enter known (pathOf place) (".." :: rest) =
      t.resolveNames enter known (pathOf place.dropLast) rest := by
  rw [resolveNames, if_neg (by decide), if_pos rfl]
  rfl

/-
  A new link that is read is resolved to what its target is
  resolved to, and the names that follow go on from there.
-/
theorem resolveNames_of_linkAt?
    {depth : Nat}
    {q : Path}
    (hTree : t.WellFormed)
    (hEntry : t.root.at? (place ++ [name]) = some (.link target))
    (hShort : (pathOf (place ++ [name])).isLong = false)
    (hNew : known.lookup (pathOf (place ++ [name])) = none)
    (hTarget :
      t.resolveNames (t.resolveLink depth)
          ((pathOf (place ++ [name]), .pending) :: known)
          (pathOf (startOf target place)) (pieces target) =
        (known', .done q))
    (rest : List String) :
    t.resolveNames (t.resolveLink (depth + 1)) known
        (pathOf place) (name :: rest) =
      t.resolveNames (t.resolveLink (depth + 1))
        ((pathOf (place ++ [name]), .resolved q) :: known') q
        rest := by
  have hName := hTree.root.isEntryName hEntry
  have hJoin :
      (pathOf place).join name = pathOf (place ++ [name]) :=
    rfl
  rw [resolveNames, if_neg (by simp [hName.isName]),
    if_neg hName.ne_up, if_neg (by simp [hName.hasNull])]
  dsimp only
  rw [hJoin, linkAt?_pathOf hTree hEntry hShort, hNew]
  dsimp only
  rw [resolveLink, pathOf_startOf, hTarget]

end Resolving

------------------------------------------------------------
-- Paths of Links
------------------------------------------------------------

section Links

variable {t : FileTree}
variable {place there : Place}
variable {name : String}
variable {names : List String}
variable {n : Node}

/- The path of a link is found where the names of its target lead. -/
theorem find_of_link
    (hTree : t.WellFormed)
    (hEntry :
      t.root.at? (place ++ [name]) =
        some (.link (Path.mk .here names).text))
    (hShort : (pathOf (place ++ [name])).isLong = false)
    (hNil : names ≠ [])
    (hPlain : (Path.mk .here names).HasPlainNames)
    (h :
      follow t.root .follow linkLimit place names =
        .ok (.node there n)) :
    t.find (pathOf (place ++ [name])) = .ok (there, n) := by
  have hDirectory := hasDirectory_of_at?_append hEntry
  apply find_of_follow hShort
  change
    follow t.root .follow (linkLimit + 1) [] (place ++ [name]) = _
  rw [follow,
    advance_append_of_hasDirectory [] hTree.root hDirectory,
    List.nil_append, advance_of_link hTree.root hEntry]
  dsimp only
  rw [startOf_text hPlain, targetNames_text hNil hPlain,
    List.append_nil, h]

/-
  A path of a link is resolved to what the names of its target
  are resolved to, also where that is too long to be found.
-/
theorem resolve_of_link
    {known : KnownLinks}
    (hTree : t.WellFormed)
    (hEntry :
      t.root.at? (place ++ [name]) =
        some (.link (Path.mk .here names).text))
    (hShort : (pathOf (place ++ [name])).isLong = false)
    (hNil : names ≠ [])
    (hPlain : (Path.mk .here names).HasPlainNames)
    (h :
      t.resolveNames (t.resolveLink (nestingLimit - 1))
          [(pathOf (place ++ [name]), .pending)]
          (pathOf place) names =
        (known, .done (pathOf there)))
    (hUp : ".." ∉ there)
    (hLong : (pathOf there).isLong = true) :
    t.resolve (pathOf (place ++ [name])) = .ok (pathOf there) := by
  have hDirectory := hasDirectory_of_at?_append hEntry
  have hTarget :
      t.resolveNames (t.resolveLink (nestingLimit - 1))
          [(pathOf (place ++ [name]), .pending)]
          (pathOf (startOf (Path.mk .here names).text place))
          (pieces (Path.mk .here names).text) =
        (known, .done (pathOf there)) := by
    rw [startOf_text hPlain, pieces_text hNil hPlain, h]
  have hResolution :
      t.resolution (pathOf (place ++ [name])) =
        .done (pathOf there) := by
    change
      (t.resolveNames (t.resolveLink (nestingLimit - 1 + 1)) []
          (pathOf []) (place ++ [name])).2 =
        _
    rw [resolveNames_append_of_hasDirectory [] hTree hDirectory,
      List.nil_append,
      resolveNames_of_linkAt? hTree hEntry hShort rfl hTarget]
    rfl
  have hFind : t.find (pathOf there) = .error .nameTooLong := by
    unfold find FileTree.target
    rw [if_pos hLong]
  rw [resolve, hResolution]
  dsimp only
  rw [t.absolute_pathOf hUp]
  unfold unlooped
  rw [hFind]

end Links

------------------------------------------------------------
-- A Link Too Deep to Be Read
------------------------------------------------------------

/- A name that is as long as a name can be. -/
def deepName : String :=
  String.ofList (List.replicate 255 'x')

/- The characters of the name. -/
theorem toList_deepName :
    deepName.toList = List.replicate 255 'x' :=
  String.toList_ofList

/- Each of them is of one byte. -/
theorem size_deepName : Utf8.size deepName.toList = 255 := by
  rw [toList_deepName, Utf8.size_replicate]
  decide

/- No shorter text is the same. -/
theorem deepName_ne
    {s : String}
    (h : s.toList.length < 255) :
    deepName ≠ s := by
  rintro rfl
  rw [toList_deepName, List.length_replicate] at h
  exact Nat.lt_irrefl _ h

/- An entry can have the name. -/
theorem isEntryName_deepName : IsEntryName deepName where
  isName := by
    rw [toList_deepName]
    decide
  ne_up := deepName_ne (by decide)
  slash_not_mem := by
    rw [toList_deepName]
    decide
  hasNull := by
    unfold Path.nameHasNull
    rw [toList_deepName]
    decide
  isLong := by
    unfold isLongName
    rw [size_deepName]
    decide

/- The place of the innermost of some directories of that name. -/
@[irreducible] def deepPlace (depth : Nat) : Place :=
  List.replicate depth deepName

/- A place of so many names in two parts. -/
theorem deepPlace_add (m n : Nat) :
    deepPlace (m + n) = deepPlace m ++ deepPlace n := by
  unfold deepPlace
  rw [List.replicate_append_replicate]

/- There is only one name in it. -/
theorem eq_deepName_of_mem
    {depth : Nat}
    {name : String}
    (h : name ∈ deepPlace depth) :
    name = deepName := by
  unfold deepPlace at h
  exact (List.mem_replicate.mp h).2

/- The size of that name and a slash. -/
theorem slashedSize_deepPlace
    (depth : Nat)
    (place : Place) :
    slashedSize (deepPlace depth ++ place) =
      256 * depth + slashedSize place := by
  unfold deepPlace
  rw [slashedSize_replicate_append, size_deepName, Nat.mul_comm]

/- Paths below sixteen of the directories are too long. -/
theorem isLong_deepPlace (place : Place) :
    (pathOf (deepPlace 16 ++ place)).isLong = true := by
  have hNil : deepPlace 16 ++ place ≠ [] := by
    simp [deepPlace]
  unfold Path.isLong
  rw [size_text_pathOf hNil, slashedSize_deepPlace]
  unfold pathLimit
  rw [decide_eq_true_eq]
  omega

/- A file with a comment in its second line. -/
def lowerComment : Bytes :=
  [10, 47, 47, 120]

/- A file of the same size with one in its first line. -/
def upperComment : Bytes :=
  [32, 47, 47, 120]

/- Two files of one name, and a link below one of them. -/
def deepProject : Node :=
  .directory
    [("l", .link (Path.mk .here ["m", "sub"]).text),
      ("m",
        .directory
          [("sub", .directory []),
            ("y.c", .file lowerComment)]),
      ("y.c", .file upperComment)]

/- The names that lead to the project, through a link. -/
def deepNames (rest : List String) : List String :=
  "s" :: (deepPlace 2 ++ rest)

/- A link that leads deep down, and two into the project. -/
def deepLinks : List (String × Node) :=
  [("s", .link (Path.mk .here (deepPlace 14)).text),
    ("x.c",
      .link (Path.mk .here (deepNames ["l", "..", "y.c"])).text),
    ("z.c", .link (Path.mk .here (deepNames ["y.c"])).text)]

/- They are links by their names. -/
theorem isLink_of_mem_deepLinks
    {e : String × Node}
    (h : e ∈ deepLinks) :
    IsEntryName e.1 ∧ ∃ target, e.2 = .link target := by
  simp only [deepLinks, List.mem_cons, List.not_mem_nil,
    or_false] at h
  rcases h with rfl | rfl | rfl
  · exact ⟨by decide, _, rfl⟩
  · exact ⟨by decide, _, rfl⟩
  · exact ⟨by decide, _, rfl⟩

/- The project in sixteen directories, beside the links. -/
def deepTree : FileTree :=
  ⟨.directory
      (deepLinks ++ [(deepName, nested deepName deepProject 15)]),
    []⟩

/- The tree is well-formed. -/
theorem wellFormed_deepTree : deepTree.WellFormed where
  root := by
    have hProject : deepProject.WellFormed :=
      wellFormed_of_places _ (by decide)
    have hNested :=
      wellFormed_nested isEntryName_deepName hProject 15
    have hS : deepName ≠ "s" := deepName_ne (by decide)
    have hX : deepName ≠ "x.c" := deepName_ne (by decide)
    have hZ : deepName ≠ "z.c" := deepName_ne (by decide)
    refine .directory ?_ ?_ ?_
    · simp [deepLinks, hS.symm, hX.symm, hZ.symm]
    · intro e hMem
      rcases List.mem_append.mp hMem with hLink | hLast
      · exact (isLink_of_mem_deepLinks hLink).1
      · rw [List.mem_singleton.mp hLast]
        exact isEntryName_deepName
    · intro e hMem
      rcases List.mem_append.mp hMem with hLink | hLast
      · rcases isLink_of_mem_deepLinks hLink with
          ⟨_, target, hNode⟩
        rw [hNode]
        exact .link target
      · rw [List.mem_singleton.mp hLast]
        exact hNested
  workplace := ⟨_, rfl⟩

/- What stands in the project. -/
theorem at?_deepPlace (place : Place) :
    deepTree.root.at? (deepPlace 16 ++ place) =
      deepProject.at? place := by
  have hEntry :
      deepTree.root.at? [deepName] =
        some (nested deepName deepProject 15) :=
    wellFormed_deepTree.root.at?_of_mem (by simp)
  have hFirst : deepPlace 16 ++ place =
      [deepName] ++ (List.replicate 15 deepName ++ place) := by
    simp [deepPlace, List.replicate_succ]
  rw [hFirst, at?_append_of_at? hEntry, at?_nested]

/- The directories on the way to it. -/
theorem hasDirectory_deepPlace
    {depth : Nat}
    (h : depth ≤ 16) :
    deepTree.root.HasDirectory (deepPlace depth) := by
  have hProject : deepTree.root.HasDirectory (deepPlace 16) := by
    rw [← List.append_nil (deepPlace 16)]
    exact ⟨_, at?_deepPlace []⟩
  have hSplit :
      deepPlace 16 = deepPlace depth ++ deepPlace (16 - depth) := by
    rw [← deepPlace_add, Nat.add_sub_cancel' h]
  rw [hSplit] at hProject
  exact hProject.of_append

/- Long names are kept apart in a target. -/
theorem hasPlainNames_deepPlace (depth : Nat) :
    (Path.mk .here (deepPlace depth)).HasPlainNames := by
  intro name hMem
  rw [eq_deepName_of_mem hMem]
  exact
    ⟨isEntryName_deepName.isName,
      isEntryName_deepName.slash_not_mem⟩

/- So are those between other names. -/
theorem hasPlainNames_deepNames
    {rest : List String}
    (h : (Path.mk .here rest).HasPlainNames) :
    (Path.mk .here (deepNames rest)).HasPlainNames := by
  intro name hMem
  rcases List.mem_cons.mp hMem with rfl | hMem
  · decide
  · rcases List.mem_append.mp hMem with hMem | hMem
    · exact hasPlainNames_deepPlace 2 name hMem
    · exact h name hMem

/- The names lead to the project, by one link. -/
theorem follow_deepNames
    (links : Nat)
    (rest : List String) :
    follow deepTree.root .follow (links + 1) []
        (deepNames rest) =
      follow deepTree.root .follow links []
        (deepPlace 16 ++ rest) := by
  have hLink :
      deepTree.root.at? ([] ++ ["s"]) =
        some (.link (Path.mk .here (deepPlace 14)).text) :=
    rfl
  rw [deepNames, follow,
    advance_of_link wellFormed_deepTree.root hLink]
  dsimp only
  rw [startOf_text (hasPlainNames_deepPlace 14),
    targetNames_text (by simp [deepPlace])
      (hasPlainNames_deepPlace 14),
    ← List.append_assoc, ← deepPlace_add]

/- What follows is looked up in the project. -/
theorem advance_deepPlace (rest : List String) :
    advance deepTree.root .follow [] (deepPlace 16 ++ rest) =
      advance deepTree.root .follow (deepPlace 16) rest := by
  have hProject :
      deepTree.root.HasDirectory ([] ++ deepPlace 16) :=
    hasDirectory_deepPlace (by decide)
  exact
    advance_append_of_hasDirectory [] wellFormed_deepTree.root
      hProject rest

/-
  They are resolved to the place of the project, and the names
  that follow go on from there.
-/
theorem resolveNames_deepNames
    {known : KnownLinks}
    (depth : Nat)
    (hNew : known.lookup (pathOf ["s"]) = none)
    (rest : List String) :
    ∃ known',
      deepTree.resolveNames (deepTree.resolveLink (depth + 1))
          known (pathOf []) (deepNames rest) =
        deepTree.resolveNames (deepTree.resolveLink (depth + 1))
          known' (pathOf (deepPlace 16)) rest := by
  have hLink :
      deepTree.root.at? ([] ++ ["s"]) =
        some (.link (Path.mk .here (deepPlace 14)).text) :=
    rfl
  have hFirst :
      deepTree.root.HasDirectory ([] ++ deepPlace 14) :=
    hasDirectory_deepPlace (by decide)
  have hLast :
      deepTree.root.HasDirectory (deepPlace 14 ++ deepPlace 2) := by
    rw [← deepPlace_add]
    exact hasDirectory_deepPlace (by decide)
  have hTarget (known : KnownLinks) :
      deepTree.resolveNames (deepTree.resolveLink depth) known
          (pathOf
            (startOf (Path.mk .here (deepPlace 14)).text []))
          (pieces (Path.mk .here (deepPlace 14)).text) =
        (known, .done (pathOf (deepPlace 14))) := by
    rw [startOf_text (hasPlainNames_deepPlace 14),
      pieces_text (by simp [deepPlace])
        (hasPlainNames_deepPlace 14),
      ← List.append_nil (deepPlace 14),
      resolveNames_append_of_hasDirectory [] wellFormed_deepTree
        hFirst]
    simp [resolveNames]
  have hLinked :=
    resolveNames_of_linkAt? wellFormed_deepTree hLink
      (by decide) hNew (hTarget _)
      (deepPlace 2 ++ rest)
  rw [resolveNames_append_of_hasDirectory (deepPlace 14)
    wellFormed_deepTree hLast, ← deepPlace_add] at hLinked
  exact ⟨_, hLinked⟩

/- The file above the link is found beside the directory. -/
theorem find_deepTree_x :
    deepTree.find (pathOf ["x.c"]) =
      .ok (deepPlace 16 ++ ["m", "y.c"], .file lowerComment) := by
  have hRoot := wellFormed_deepTree.root
  have hLink :
      deepTree.root.at? (deepPlace 16 ++ ["l"]) =
        some (.link (Path.mk .here ["m", "sub"]).text) :=
    at?_deepPlace _
  have hX :
      deepTree.root.at? ([] ++ ["x.c"]) =
        some
          (.link
            (Path.mk .here (deepNames ["l", "..", "y.c"])).text) :=
    rfl
  have hInner :
      deepTree.root.HasDirectory (deepPlace 16 ++ ["m", "sub"]) :=
    ⟨_, at?_deepPlace _⟩
  have hFile :
      deepTree.root.at? ((deepPlace 16 ++ ["m"]) ++ ["y.c"]) =
        some (.file lowerComment) := by
    rw [List.append_assoc]
    exact at?_deepPlace _
  have hPlain : (Path.mk .here ["m", "sub"]).HasPlainNames := by
    decide
  -- From the directory that the link leads to, back up by one.
  have hUp :
      (deepPlace 16 ++ ["m", "sub"]).dropLast =
        deepPlace 16 ++ ["m"] :=
    List.dropLast_append_of_ne_nil (by simp)
  have hAdvance :
      advance deepTree.root .follow (deepPlace 16)
          (["m", "sub"] ++ ["..", "y.c"]) =
        .arrived
          (.node ((deepPlace 16 ++ ["m"]) ++ ["y.c"])
            (.file lowerComment)) := by
    rw [advance_append_of_hasDirectory _ hRoot hInner,
      advance_up, hUp]
    exact
      advance_of_at? .follow _ hRoot (by decide) hFile
        (Or.inr (by simp))
  have hFollow :
      follow deepTree.root .follow linkLimit []
          (deepNames ["l", "..", "y.c"]) =
        .ok
          (.node ((deepPlace 16 ++ ["m"]) ++ ["y.c"])
            (.file lowerComment)) := by
    rw [linkLimit, follow_deepNames, follow,
      advance_deepPlace, advance_of_link hRoot hLink]
    dsimp only
    rw [startOf_text hPlain, targetNames_text (by simp) hPlain,
      follow, hAdvance]
  have hFind :=
    find_of_link wellFormed_deepTree hX (by decide)
      (by simp [deepNames])
      (hasPlainNames_deepNames (by decide)) hFollow
  rw [List.append_assoc] at hFind
  exact hFind

/- The other file is found in the project. -/
theorem find_deepTree_z :
    deepTree.find (pathOf ["z.c"]) =
      .ok (deepPlace 16 ++ ["y.c"], .file upperComment) := by
  have hRoot := wellFormed_deepTree.root
  have hZ :
      deepTree.root.at? ([] ++ ["z.c"]) =
        some (.link (Path.mk .here (deepNames ["y.c"])).text) :=
    rfl
  have hFile :
      deepTree.root.at? (deepPlace 16 ++ ["y.c"]) =
        some (.file upperComment) :=
    at?_deepPlace _
  have hFollow :
      follow deepTree.root .follow linkLimit []
          (deepNames ["y.c"]) =
        .ok
          (.node (deepPlace 16 ++ ["y.c"])
            (.file upperComment)) := by
    rw [linkLimit, follow_deepNames, follow, advance_deepPlace,
      advance_of_at? .follow _ hRoot (by decide) hFile
        (Or.inr (by simp))]
  have hFind :=
    find_of_link wellFormed_deepTree hZ (by decide)
      (by simp [deepNames])
      (hasPlainNames_deepNames (by decide)) hFollow
  exact hFind

/- The link to a directory is found as well. -/
theorem find_deepTree_s :
    ∃ entries,
      deepTree.find (pathOf ["s"]) =
        .ok (deepPlace 14, .directory entries) := by
  have hPlace : deepTree.root.HasDirectory (deepPlace 14) :=
    hasDirectory_deepPlace (by decide)
  rcases hPlace with ⟨entries, hEntry⟩
  have hS :
      deepTree.root.at? ([] ++ ["s"]) =
        some (.link (Path.mk .here (deepPlace 14)).text) :=
    rfl
  have hFollow :
      follow deepTree.root .follow linkLimit [] (deepPlace 14) =
        .ok (.node (deepPlace 14) (.directory entries)) := by
    have hAdvance :=
      advance_of_at? .follow [] wellFormed_deepTree.root
        (by decide) hEntry (Or.inr (by simp))
    rw [linkLimit, follow, hAdvance]
    rfl
  have hFind :=
    find_of_link wellFormed_deepTree hS (by decide)
      (by simp [deepPlace]) (hasPlainNames_deepPlace 14) hFollow
  exact ⟨entries, hFind⟩

/- The place of the file in the project. -/
theorem at?_upperComment :
    deepTree.root.at? (deepPlace 16 ++ ["y.c"]) =
      some (.file upperComment) :=
  at?_deepPlace _

/-
  A link to the project is resolved to the file there, if the
  names that follow are.
-/
theorem resolve_deepTree
    {name : String}
    {rest : List String}
    (hEntry :
      deepTree.root.at? ([] ++ [name]) =
        some (.link (Path.mk .here (deepNames rest)).text))
    (hShort : (pathOf ([] ++ [name])).isLong = false)
    (hPlain : (Path.mk .here rest).HasPlainNames)
    (hNew :
      List.lookup (pathOf ["s"])
          [(pathOf ([] ++ [name]), LinkState.pending)] =
        none)
    (hRest :
      ∀ enter known,
        deepTree.resolveNames enter known
            (pathOf (deepPlace 16)) rest =
          (known, .done (pathOf (deepPlace 16 ++ ["y.c"])))) :
    deepTree.resolve (pathOf ([] ++ [name])) =
      .ok (pathOf (deepPlace 16 ++ ["y.c"])) := by
  rcases resolveNames_deepNames (nestingLimit - 2) hNew rest with
    ⟨known, hResolve⟩
  rw [hRest] at hResolve
  exact
    resolve_of_link wellFormed_deepTree hEntry hShort
      (by simp [deepNames]) (hasPlainNames_deepNames hPlain)
      hResolve
      (wellFormed_deepTree.root.up_not_mem at?_upperComment)
      (isLong_deepPlace ["y.c"])

/- The link to the file in the project is resolved to it. -/
theorem resolve_deepTree_z :
    deepTree.resolve (pathOf ["z.c"]) =
      .ok (pathOf (deepPlace 16 ++ ["y.c"])) := by
  apply resolve_deepTree rfl (by decide) (by decide) rfl
  intro enter known
  exact
    resolveNames_of_isLong (by decide) (isLong_deepPlace ["y.c"])
      []

/- So is the other: the link in the project is not read. -/
theorem resolve_deepTree_x :
    deepTree.resolve (pathOf ["x.c"]) =
      .ok (pathOf (deepPlace 16 ++ ["y.c"])) := by
  apply resolve_deepTree rfl (by decide) (by decide) rfl
  intro enter known
  rw [resolveNames_of_isLong (by decide) (isLong_deepPlace ["l"]),
    resolveNames_up, List.dropLast_concat]
  exact
    resolveNames_of_isLong (by decide) (isLong_deepPlace ["y.c"])
      []

end FileTree

end CommentLint
