import CommentLint.Proofs.FileTree.Status
import CommentLint.Proofs.Scan.Walk

/-
  The files that a scan collects.

  What is collected is what a plain filter of all entries
  gives, links to files among them: no excluded name in the
  whole path, a suffix that is asked for, and no more bytes
  than allowed.  That holds where every entry that is not
  excluded answers what it leads to.  One that meets a name
  that is too long ends the work instead.

  Key definitions include:
    * `FileTree.IsSought`
    * `FileTree.EntriesAnswer`

  Key results include:
    * `FileFilter.allowsSize_ofExtensions`
    * `FileTree.collect_lists_sought`
    * `FileTree.collect_stops_at_longTarget`
-/

namespace CommentLint

open Node

------------------------------------------------------------
-- Sizes and Suffixes
------------------------------------------------------------

namespace FileFilter

variable {excluded extensions : List String}
variable {maxSizeKb : Int}

/- A size is compared with the greatest one, if that is positive. -/
theorem allowsSize_ofExtensions
    (excluded extensions : List String)
    (maxSizeKb : Int)
    (size : Nat) :
    (ofExtensions excluded extensions
        (.integer maxSizeKb)).allowsSize size =
      .ok (decide (0 < maxSizeKb →
        (size : Int) ≤ maxSizeKb * 1024)) := by
  change
    Except.ok
        (some (compare maxSizeKb 0) != some .gt ||
          some (compare (maxSizeKb * 1024) (size : Int)) !=
            some .lt) =
      _
  congr 1
  rw [Bool.eq_iff_iff]
  simp only [Bool.or_eq_true, bne_iff_ne, ne_eq,
    Option.some.injEq, Int.compare_eq_gt, Int.compare_eq_lt,
    decide_eq_true_eq]
  omega

/- A name is taken by its suffix, in small letters. -/
theorem allowsName_ofExtensions_iff
    {p : Path} :
    (ofExtensions excluded extensions
        (.integer maxSizeKb)).allowsName p.name = true ↔
      ∃ ext ∈ extensions,
        normalExtension ext = lowerString p.suffix := by
  simp [allowsName, ofExtensions, Path.suffix]

end FileFilter

namespace FileTree

------------------------------------------------------------
-- Taking Candidates
------------------------------------------------------------

section Taking

variable {t : FileTree}
variable {f : FileFilter}
variable {p q : Path}
variable {items files : List Path}

/- A candidate is kept before the others if it is taken. -/
theorem taken_cons
    {isTaken : Bool}
    (hTakes : t.takes f q = .ok isTaken)
    (hRest : t.taken f items = .ok files) :
    t.taken f (q :: items) =
      .ok (if isTaken then q :: files else files) := by
  rw [taken, hTakes, hRest]
  rfl

/- Where each candidate is judged, those taken are kept in order. -/
theorem taken_of_takes
    (h : ∀ q ∈ items, ∃ isTaken, t.takes f q = .ok isTaken) :
    ∃ files,
      t.taken f items = .ok files ∧ files.Sublist items ∧
        ∀ q, q ∈ files ↔ q ∈ items ∧ t.takes f q = .ok true := by
  induction items with
  | nil => exact ⟨[], rfl, .slnil, by simp⟩
  | cons p rest ih =>
      rcases ih fun q hMem => h q (by simp [hMem]) with
        ⟨files, hTaken, hSublist, hFiles⟩
      rcases h p (by simp) with ⟨isTaken, hTakes⟩
      cases isTaken with
      | true =>
          refine
            ⟨p :: files, taken_cons hTakes hTaken,
              hSublist.cons_cons p, ?_⟩
          · intro q
            rw [List.mem_cons, List.mem_cons, hFiles]
            constructor
            · rintro (rfl | ⟨hMem, hYes⟩)
              · exact ⟨Or.inl rfl, hTakes⟩
              · exact ⟨Or.inr hMem, hYes⟩
            · rintro ⟨rfl | hMem, hYes⟩
              · exact Or.inl rfl
              · exact Or.inr ⟨hMem, hYes⟩
      | false =>
          refine
            ⟨files, taken_cons hTakes hTaken, hSublist.cons p, ?_⟩
          · intro q
            rw [hFiles, List.mem_cons]
            constructor
            · rintro ⟨hMem, hYes⟩
              exact ⟨Or.inr hMem, hYes⟩
            · rintro ⟨rfl | hMem, hYes⟩
              · rw [hTakes] at hYes
                cases hYes
              · exact ⟨hMem, hYes⟩

/- What is taken has been judged, all of it. -/
theorem takes_of_taken
    (h : t.taken f items = .ok files) :
    ∀ q ∈ items, ∃ isTaken, t.takes f q = .ok isTaken := by
  induction items generalizing files with
  | nil => simp
  | cons p rest ih =>
      rw [taken] at h
      cases hTakes : t.takes f p with
      | error e =>
          rw [hTakes] at h
          cases h
      | ok isTaken =>
          rw [hTakes] at h
          cases hRest : t.taken f rest with
          | error e =>
              rw [hRest] at h
              cases h
          | ok kept =>
              intro q hMem
              rcases List.mem_cons.mp hMem with rfl | hMem
              · exact ⟨isTaken, hTakes⟩
              · exact ih hRest q hMem

/- A candidate that is taken leads to a file. -/
theorem exists_file_of_takes
    (h : t.takes f q = .ok true) :
    ∃ data,
      t.status q = .ok (some (.file data)) ∧
        f.allowsSize data.length = .ok true ∧
          f.allowsName q.name = true := by
  unfold takes at h
  split at h
  case h_1 => cases h
  case h_2 data hStatus =>
    split at h
    case h_1 => cases h
    case h_2 fits hSize =>
      rw [Except.ok.injEq, Bool.and_eq_true] at h
      rcases h with ⟨rfl, hName⟩
      exact ⟨data, hStatus, hSize, hName⟩
  case h_3 => cases h

/- A file of a size and a name that are allowed is taken. -/
theorem takes_of_file
    {data : Bytes}
    (hStatus : t.status q = .ok (some (.file data)))
    (hSize : f.allowsSize data.length = .ok true)
    (hName : f.allowsName q.name = true) :
    t.takes f q = .ok true := by
  unfold takes
  rw [hStatus]
  dsimp only
  rw [hSize]
  simp [hName]

/- A directory is not. -/
theorem takes_of_directory
    {entries : List (String × Node)}
    (hStatus : t.status q = .ok (some (.directory entries))) :
    t.takes f q = .ok false := by
  unfold takes
  rw [hStatus]

/- A candidate that answers is judged. -/
theorem exists_takes_of_status
    {found : Option Node}
    {fits : Nat → Bool}
    (hSize : ∀ size, f.allowsSize size = .ok (fits size))
    (hStatus : t.status q = .ok found) :
    ∃ isTaken, t.takes f q = .ok isTaken := by
  unfold takes
  rw [hStatus]
  rcases found with _ | ⟨data | entries | target⟩
  · exact ⟨false, rfl⟩
  · exact
      ⟨fits data.length && f.allowsName q.name,
        by simp only [hSize]⟩
  · exact ⟨false, rfl⟩
  · exact ⟨false, rfl⟩

/- A candidate that is judged answers. -/
theorem exists_status_of_takes
    {isTaken : Bool}
    (h : t.takes f q = .ok isTaken) :
    ∃ found, t.status q = .ok found := by
  unfold takes at h
  split at h
  case h_1 => cases h
  case h_2 hStatus => exact ⟨_, hStatus⟩
  case h_3 hStatus => exact ⟨_, hStatus⟩

end Taking

------------------------------------------------------------
-- Collecting Below a Directory
------------------------------------------------------------

section Walking

variable {t : FileTree}
variable {f : FileFilter}
variable {p q : Path}
variable {base : Place}
variable {entries : List (String × Node)}
variable {files : List Path}

/- What is collected below a directory is taken on the walk. -/
theorem collect_eq_taken
    (hTree : t.WellFormed)
    (hFind : t.find p = .ok (base, .directory entries))
    (f : FileFilter) :
    t.collect f p =
      t.taken f (candidatesBelow f p (.directory entries)) := by
  unfold collect
  rw [status_of_find hTree hFind]
  dsimp only
  rw [if_neg (by simp [hasNull_of_find hTree hFind]),
    candidates, hFind]

/- What is collected are the candidates taken, in their order. -/
theorem mem_collect_iff
    (hTree : t.WellFormed)
    (hFind : t.find p = .ok (base, .directory entries))
    (hCollect : t.collect f p = .ok files) :
    files.Pairwise p.ListsBefore ∧
      ∀ q, q ∈ files ↔
        ∃ place,
          q = p.below place ∧
            IsCandidate f p (.directory entries) place ∧
              t.takes f q = .ok true := by
  have hNode := hTree.root.at? (at?_of_find hTree hFind)
  rw [collect_eq_taken hTree hFind] at hCollect
  rcases taken_of_takes (takes_of_taken hCollect) with
    ⟨kept, hKept, hSublist, hFiles⟩
  rw [hCollect] at hKept
  cases hKept
  refine
    ⟨(candidatesBelow_pairwise hNode).sublist hSublist, ?_⟩
  intro q
  rw [hFiles, mem_candidatesBelow_iff hNode]
  constructor
  · rintro ⟨⟨place, hPlace, rfl⟩, hTakes⟩
    exact ⟨place, rfl, hPlace, hTakes⟩
  · rintro ⟨place, rfl, hPlace, hTakes⟩
    exact ⟨⟨place, hPlace, rfl⟩, hTakes⟩

/-
  What is collected leads to files, each of them the path
  itself or one below it.
-/
theorem exists_file_of_mem_collect
    (hTree : t.WellFormed)
    (h : t.collect f p = .ok files)
    (hMem : q ∈ files) :
    (∃ data, t.status q = .ok (some (.file data))) ∧
      ∃ place, q = p.below place := by
  have hCollect := h
  unfold collect at h
  split at h
  case h_1 => cases h
  case h_2 data hStatus =>
    split at h
    case h_1 => cases h
    case h_2 fits _ =>
      cases h
      cases fits with
      | false => cases hMem
      | true =>
          rcases List.mem_singleton.mp hMem with rfl
          exact ⟨⟨data, hStatus⟩, [], (q.below_nil).symm⟩
  case h_3 found hFile hStatus =>
    split at h
    case isTrue => cases h
    case isFalse =>
      unfold candidates at h
      split at h
      case h_1 base n hFind =>
        cases n with
        | file data =>
            cases h
            cases hMem
        | link target =>
            cases h
            cases hMem
        | directory entries =>
            rcases ((mem_collect_iff hTree hFind hCollect).2 q).mp
                hMem with
              ⟨place, hPlace, _, hTakes⟩
            rcases exists_file_of_takes hTakes with
              ⟨data, hData, _⟩
            exact ⟨⟨data, hData⟩, place, hPlace⟩
      case h_2 =>
        cases h
        cases hMem

end Walking

------------------------------------------------------------
-- What a Filter Asks For
------------------------------------------------------------

/-
  A file that is asked for: an entry below a node at a path,
  or what a link there leads to, without an excluded name in
  its path, with a suffix among those given, and of no more
  bytes than allowed.
-/
structure IsSought
    (t : FileTree)
    (excluded extensions : List String)
    (maxSizeKb : Int)
    (p : Path)
    (n : Node)
    (place : Place)
    (data : Bytes) : Prop where
  entry :
    n.at? place = some (.file data) ∨
      ∃ target there,
        n.at? place = some (.link target) ∧
          t.find (p.below place) = .ok (there, .file data)
  kept : ∀ name ∈ excluded, name ∉ (p.below place).parts
  suffix :
    ∃ ext ∈ extensions,
      FileFilter.normalExtension ext =
        lowerString (p.below place).suffix
  size : 0 < maxSizeKb → (data.length : Int) ≤ maxSizeKb * 1024

/- Every entry that is not excluded answers what it leads to. -/
def EntriesAnswer
    (t : FileTree)
    (excluded : List String)
    (p : Path)
    (n : Node) : Prop :=
  ∀ place m, n.at? place = some m →
    (∀ name ∈ excluded, name ∉ (p.below place).parts) →
      ∃ found, t.status (p.below place) = .ok found

section Collecting

variable {t : FileTree}
variable {p q : Path}
variable {base place : Place}
variable {entries : List (String × Node)}
variable {excluded extensions : List String}
variable {maxSizeKb : Int}

/- What is asked for leads to its file. -/
theorem IsSought.status
    {data : Bytes}
    (hTree : t.WellFormed)
    (hFind : t.find p = .ok (base, .directory entries))
    (hAnswer :
      t.EntriesAnswer excluded p (.directory entries))
    (h :
      t.IsSought excluded extensions maxSizeKb p
        (.directory entries) place data) :
    t.status (p.below place) = .ok (some (.file data)) := by
  rcases h.entry with hFile | ⟨target, there, _, hLinked⟩
  · rcases hAnswer _ _ hFile h.kept with ⟨found, hStatus⟩
    have hLong :=
      isLong_of_status (hasNull_below_of_find hTree hFind hFile)
        hStatus
    exact status_below hTree hFind hFile (by simp) hLong
  · exact status_of_find hTree hLinked

/- What is asked for is a candidate. -/
theorem IsSought.isCandidate
    {data : Bytes}
    (hTree : t.WellFormed)
    (hFind : t.find p = .ok (base, .directory entries))
    (hAnswer :
      t.EntriesAnswer excluded p (.directory entries))
    (h :
      t.IsSought excluded extensions maxSizeKb p
        (.directory entries) place data) :
    IsCandidate
      (.ofExtensions excluded extensions (.integer maxSizeKb)) p
      (.directory entries) place := by
  have hEntry :
      ∃ m, (Node.directory entries).at? place = some m ∧
        m.isDirectory = false := by
    rcases h.entry with hFile | ⟨target, _, hLink, _⟩
    · exact ⟨_, hFile, rfl⟩
    · exact ⟨_, hLink, rfl⟩
  have hKept :
      (FileFilter.ofExtensions excluded extensions
          (.integer maxSizeKb)).excludes (p.below place).parts =
        false :=
    FileFilter.excludes_eq_false_iff.mpr h.kept
  refine ⟨?_, hEntry, hKept, ?_⟩
  · rintro rfl
    rcases hEntry with ⟨m, hHere, hFile⟩
    cases hHere
    cases hFile
  · intro way name rest hPlace _
    subst hPlace
    rcases hEntry with ⟨m, hHere, _⟩
    rcases hasDirectory_of_at?_append hHere with ⟨inner, hWay⟩
    have hWayKept :=
      FileFilter.excludes_eq_false_iff.mp
        (FileFilter.excludes_below_eq_false hKept)
    rcases hAnswer _ _ hWay hWayKept with ⟨found, hStatus⟩
    exact
      isLong_of_status (hasNull_below_of_find hTree hFind hWay)
        hStatus

/- A candidate that is taken is asked for. -/
theorem isSought_of_takes
    (hTree : t.WellFormed)
    (hFind : t.find p = .ok (base, .directory entries))
    (h :
      IsCandidate
        (.ofExtensions excluded extensions (.integer maxSizeKb))
        p (.directory entries) place)
    (hTakes :
      t.takes
          (.ofExtensions excluded extensions
            (.integer maxSizeKb))
          (p.below place) =
        .ok true) :
    ∃ data,
      t.IsSought excluded extensions maxSizeKb p
        (.directory entries) place data := by
  rcases exists_file_of_takes hTakes with
    ⟨data, hStatus, hSize, hName⟩
  rw [FileFilter.allowsSize_ofExtensions, Except.ok.injEq,
    decide_eq_true_eq] at hSize
  rcases exists_find_of_status hStatus with
    ⟨hNull, there, hThere⟩
  rcases h.entry with ⟨m, hEntry, hDirectory⟩
  refine
    ⟨data, ?_, FileFilter.excludes_eq_false_iff.mp h.kept,
      FileFilter.allowsName_ofExtensions_iff.mp hName, hSize⟩
  cases m with
  | directory inner => cases hDirectory
  | link target => exact Or.inr ⟨target, there, hEntry, hThere⟩
  | file bytes =>
      have hLong := isLong_of_status hNull hStatus
      have hSame :=
        status_below hTree hFind hEntry (by simp) hLong
      rw [hStatus] at hSame
      cases hSame
      exact Or.inl hEntry

/- What is asked for are the candidates that are taken. -/
theorem exists_isSought_iff
    (hTree : t.WellFormed)
    (hFind : t.find p = .ok (base, .directory entries))
    (hAnswer :
      t.EntriesAnswer excluded p (.directory entries)) :
    (∃ data,
        t.IsSought excluded extensions maxSizeKb p
          (.directory entries) place data) ↔
      IsCandidate
          (.ofExtensions excluded extensions
            (.integer maxSizeKb))
          p (.directory entries) place ∧
        t.takes
            (.ofExtensions excluded extensions
              (.integer maxSizeKb))
            (p.below place) =
          .ok true := by
  constructor
  · rintro ⟨data, hSought⟩
    refine ⟨hSought.isCandidate hTree hFind hAnswer, ?_⟩
    apply takes_of_file (hSought.status hTree hFind hAnswer)
    · rw [FileFilter.allowsSize_ofExtensions]
      exact congrArg _ (decide_eq_true hSought.size)
    · exact
        FileFilter.allowsName_ofExtensions_iff.mpr
          hSought.suffix
  · rintro ⟨hPlace, hTakes⟩
    exact isSought_of_takes hTree hFind hPlace hTakes

/-
  Collecting gets through where every candidate answers, and
  nowhere else.
-/
theorem exists_collect_iff
    (hTree : t.WellFormed)
    (hFind : t.find p = .ok (base, .directory entries)) :
    (∃ files,
        t.collect
            (.ofExtensions excluded extensions
              (.integer maxSizeKb)) p =
          .ok files) ↔
      ∀ place,
        IsCandidate
            (.ofExtensions excluded extensions
              (.integer maxSizeKb))
            p (.directory entries) place →
          ∃ found, t.status (p.below place) = .ok found := by
  have hNode := hTree.root.at? (at?_of_find hTree hFind)
  rw [collect_eq_taken hTree hFind]
  constructor
  · rintro ⟨files, hTaken⟩ place hPlace
    rcases takes_of_taken hTaken (p.below place)
        ((mem_candidatesBelow_iff hNode).mpr
          ⟨place, hPlace, rfl⟩) with
      ⟨isTaken, hTakes⟩
    exact exists_status_of_takes hTakes
  · intro hAnswer
    have hJudged :
        ∀ q ∈
          candidatesBelow
            (.ofExtensions excluded extensions
              (.integer maxSizeKb)) p (.directory entries),
          ∃ isTaken,
            t.takes
                (.ofExtensions excluded extensions
                  (.integer maxSizeKb)) q =
              .ok isTaken := by
      intro q hMem
      rcases (mem_candidatesBelow_iff hNode).mp hMem with
        ⟨place, hPlace, rfl⟩
      rcases hAnswer place hPlace with ⟨found, hStatus⟩
      exact
        exists_takes_of_status
          (FileFilter.allowsSize_ofExtensions _ _ _) hStatus
    rcases taken_of_takes hJudged with ⟨files, hTaken, _⟩
    exact ⟨files, hTaken⟩

/- Collecting gets through where all entries answer. -/
theorem exists_collect_of_entriesAnswer
    (hTree : t.WellFormed)
    (hFind : t.find p = .ok (base, .directory entries))
    (hAnswer :
      t.EntriesAnswer excluded p (.directory entries)) :
    ∃ files,
      t.collect
          (.ofExtensions excluded extensions
            (.integer maxSizeKb)) p =
        .ok files := by
  rw [exists_collect_iff hTree hFind]
  intro place hPlace
  rcases hPlace.entry with ⟨m, hEntry, _⟩
  exact
    hAnswer place m hEntry
      (FileFilter.excludes_eq_false_iff.mp hPlace.kept)

/-
  The files that are collected below a directory are those
  asked for, each of them once, and in the order of the walk.
-/
theorem collect_lists_sought
    (hTree : t.WellFormed)
    (hFind : t.find p = .ok (base, .directory entries))
    (hAnswer :
      t.EntriesAnswer excluded p (.directory entries)) :
    ∃ files,
      t.collect
          (.ofExtensions excluded extensions
            (.integer maxSizeKb)) p =
          .ok files ∧
        files.Nodup ∧ files.Pairwise p.ListsBefore ∧
          ∀ q, q ∈ files ↔
            ∃ place data,
              q = p.below place ∧
                t.IsSought excluded extensions maxSizeKb p
                  (.directory entries) place data := by
  rcases exists_collect_of_entriesAnswer hTree hFind hAnswer with
    ⟨files, hCollect⟩
  rcases mem_collect_iff hTree hFind hCollect with
    ⟨hOrder, hFiles⟩
  refine
    ⟨files, hCollect, Path.ListsBefore.nodup hOrder, hOrder, ?_⟩
  intro q
  rw [hFiles]
  constructor
  · rintro ⟨place, rfl, hTaken⟩
    rcases (exists_isSought_iff hTree hFind hAnswer).mpr hTaken
      with ⟨data, hSought⟩
    exact ⟨place, data, rfl, hSought⟩
  · rintro ⟨place, data, rfl, hSought⟩
    exact
      ⟨place, rfl,
        (exists_isSought_iff hTree hFind hAnswer).mp
          ⟨data, hSought⟩⟩

end Collecting

------------------------------------------------------------
-- Links to Files, to Nowhere, and to Long Names
------------------------------------------------------------

/- Entries with a subdirectory, and with links among them. -/
def linkedEntries : List (String × Node) :=
  [("a.c", .file [47, 47, 120]),
    ("b.c", .link "a.c"),
    ("gone.c", .link "none.c"),
    ("lib", .directory [("c.c", .file [47, 47])])]

/- A project of those entries. -/
def linkedProject : Node :=
  .directory linkedEntries

/- A tree of that project, which is worked in. -/
def linkedTree : FileTree :=
  ⟨.directory [("proj", linkedProject)], ["proj"]⟩

/- The tree is well-formed. -/
theorem wellFormed_linkedTree :
    linkedTree.WellFormed :=
  ⟨wellFormed_of_places _ (by decide), ⟨_, rfl⟩⟩

/- Where all places below a node answer, its entries do. -/
theorem entriesAnswer_of_places
    {t : FileTree}
    {p : Path}
    {n : Node}
    (excluded : List String)
    (h : ∀ e ∈ n.places, (t.status (p.below e.1)).isOk = true) :
    t.EntriesAnswer excluded p n := by
  intro place m hEntry _
  have hOk := h _ (mem_places_of_at? hEntry)
  cases hStatus : t.status (p.below place) with
  | error cause =>
      rw [hStatus] at hOk
      cases hOk
  | ok found => exact ⟨found, rfl⟩

/- What is collected in the project without its subdirectory. -/
theorem collect_lists_linkedProject :
    linkedTree.find ⟨.here, []⟩ = .ok (["proj"], linkedProject) ∧
      linkedTree.WellFormed ∧
      linkedTree.EntriesAnswer ["lib"] ⟨.here, []⟩
        linkedProject ∧
      ∃ files,
        linkedTree.collect
            (.ofExtensions ["lib"] ["C"] (.integer 1024))
            ⟨.here, []⟩ =
          .ok files ∧
          files.Nodup ∧
          files.Pairwise (Path.ListsBefore ⟨.here, []⟩) ∧
            ∀ q, q ∈ files ↔
              ∃ place data,
                q = (Path.mk .here []).below place ∧
                  linkedTree.IsSought ["lib"] ["C"] 1024
                    ⟨.here, []⟩ linkedProject place data :=
  have hAnswer :
      linkedTree.EntriesAnswer ["lib"] ⟨.here, []⟩
        linkedProject :=
    entriesAnswer_of_places ["lib"] (by decide)
  ⟨rfl, wellFormed_linkedTree, hAnswer,
    collect_lists_sought wellFormed_linkedTree rfl hAnswer⟩

/- A name that is too long ends a lookup. -/
theorem advance_of_isLongName
    {root : Node}
    {here : Place}
    {name : String}
    (rest : List String)
    (hName : Path.isName name.toList = true)
    (hUp : name ≠ "..")
    (hLong : isLongName name = true) :
    advance root .follow here (name :: rest) =
      .failed .nameTooLong := by
  rw [advance, if_neg (by simp [hName]), if_neg hUp,
    if_neg (by simp [createsDirectory]), if_pos hLong]

/- A name that is too long by one character. -/
def longTarget : String :=
  String.ofList (List.replicate 256 'x')

/- The characters of the name. -/
theorem toList_longTarget :
    longTarget.toList = List.replicate 256 'x' :=
  String.toList_ofList

/- The name is the only one of its text. -/
theorem targetNames_longTarget :
    targetNames longTarget = [longTarget] := by
  have hSplit :
      (List.replicate 256 'x').splitOn '/' =
        [List.replicate 256 'x'] := by
    decide +kernel
  have hPieces : pieces longTarget = [longTarget] := by
    unfold pieces
    rw [toList_longTarget, hSplit]
    rfl
  have hNe : longTarget ≠ "" := by
    intro hEmpty
    have hChars := congrArg String.toList hEmpty
    rw [toList_longTarget] at hChars
    cases hChars
  unfold targetNames
  rw [hPieces]
  simp [hNe]

/- A lookup of the name fails. -/
theorem advance_longTarget
    (root : Node)
    (here : Place) :
    advance root .follow here [longTarget] =
      .failed .nameTooLong := by
  apply advance_of_isLongName
  · rw [toList_longTarget]
    decide
  · intro hUp
    have hChars := congrArg String.toList hUp
    rw [toList_longTarget] at hChars
    cases hChars
  · unfold isLongName
    rw [toList_longTarget]
    decide +kernel

/- A file beside a link whose target is that name. -/
def longTargetTree : FileTree :=
  ⟨.directory
      [("a.c", .file [47, 47]), ("l.c", .link longTarget)], []⟩

/- The link cannot be looked up. -/
theorem status_longTargetTree :
    longTargetTree.status ⟨.here, ["l.c"]⟩ =
      .error (.system .nameTooLong ⟨.here, ["l.c"]⟩) := by
  have hLink :
      advance longTargetTree.root .follow [] ["l.c"] =
        .redirected [] longTarget [] :=
    rfl
  have hFollow :
      follow longTargetTree.root .follow (linkLimit + 1) []
          ["l.c"] =
        .error .nameTooLong := by
    rw [follow, hLink]
    change
      follow _ _ linkLimit (startOf longTarget [])
          (targetNames longTarget ++ []) =
        _
    rw [targetNames_longTarget, List.append_nil, linkLimit,
      follow, advance_longTarget]
  have hFind :
      longTargetTree.find ⟨.here, ["l.c"]⟩ =
        .error .nameTooLong :=
    find_of_follow_error (by decide) hFollow
  unfold status
  rw [hFind]
  rfl

/-
  A link to a name that is too long keeps everything from
  being collected, while one to a name that is merely missing
  is passed over.
-/
theorem collect_stops_at_longTarget :
    longTargetTree.WellFormed ∧
      longTargetTree.IsSought [] [".c"] 1024 ⟨.here, []⟩
        longTargetTree.root ["a.c"] [47, 47] ∧
      ¬ ∃ files,
        longTargetTree.collect
            (.ofExtensions [] [".c"] (.integer 1024))
            ⟨.here, []⟩ =
          .ok files := by
  have hTree : longTargetTree.WellFormed :=
    ⟨wellFormed_of_places _ (by decide), ⟨_, rfl⟩⟩
  refine ⟨hTree, ?_, ?_⟩
  · exact
      ⟨Or.inl rfl, by simp, ⟨".c", by simp, by decide⟩,
        by decide⟩
  · rw [exists_collect_iff hTree rfl]
    intro hAnswer
    have hLink :
        IsCandidate
          (.ofExtensions [] [".c"] (.integer 1024)) ⟨.here, []⟩
          longTargetTree.root ["l.c"] :=
      IsCandidate.singleton_iff.mpr ⟨_, rfl, rfl⟩
    rcases hAnswer ["l.c"] hLink with ⟨found, hStatus⟩
    change
      longTargetTree.status ⟨.here, ["l.c"]⟩ = .ok found
      at hStatus
    rw [status_longTargetTree] at hStatus
    cases hStatus

end FileTree

end CommentLint
