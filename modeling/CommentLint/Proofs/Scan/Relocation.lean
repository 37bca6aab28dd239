import CommentLint.Proofs.Scan.WholeScans

/-
  One directory at two places.

  A directory with the same entries at two places is collected
  and scanned alike: the same files by the names below it, and
  the same result.  That holds if a name above the directory
  is excluded at both places or at neither, since all names of
  a path are looked at, and if its links lead to the same
  entries of it.

  Key definitions include:
    * `Site`
    * `Site.Hosts`
    * `Site.LinksAgree`
    * `Site.IsScannedAs`

  Key results include:
    * `Site.exists_collect_at_both`
    * `Site.scan_agrees_at_both`
    * `Site.collect_differs_by_place`
-/

namespace CommentLint

open Node FileTree

------------------------------------------------------------
-- Sites
------------------------------------------------------------

/- A path in a tree, with the place to which it leads. -/
structure Site where
  tree : FileTree
  path : Path
  place : Place

namespace Site

/-
  A directory stands at a site, and its entries that are not
  excluded can be looked up there.
-/
structure Hosts
    (s : Site)
    (excluded : List String)
    (entries : List (String × Node)) : Prop where
  wellFormed : s.tree.WellFormed
  found : s.tree.find s.path = .ok (s.place, .directory entries)
  answers :
    s.tree.EntriesAnswer excluded s.path (.directory entries)

/-
  A path below two sites leads to the same file below them, or
  to no file at either.
-/
inductive LeadsAlike
    (s s' : Site)
    (place : Place) : Prop where
| file
    (inner : Place)
    (data : Bytes)
    (h :
      s.tree.find (s.path.below place) =
        .ok (s.place ++ inner, .file data))
    (h' :
      s'.tree.find (s'.path.below place) =
        .ok (s'.place ++ inner, .file data)) :
    LeadsAlike s s' place
| noFile
    (h :
      ∀ there data,
        s.tree.find (s.path.below place) ≠
          .ok (there, .file data))
    (h' :
      ∀ there data,
        s'.tree.find (s'.path.below place) ≠
          .ok (there, .file data)) :
    LeadsAlike s s' place

/- The links below a node lead alike at two sites. -/
def LinksAgree
    (s s' : Site)
    (n : Node) : Prop :=
  ∀ place target,
    n.at? place = some (.link target) → LeadsAlike s s' place

/- Names above two sites are excluded at both or at neither. -/
def ExcludedAlike
    (s s' : Site)
    (excluded : List String) : Prop :=
  (∀ name ∈ excluded, name ∉ s.path.parts) ↔
    ∀ name ∈ excluded, name ∉ s'.path.parts

section Sites

variable {s s' : Site}
variable {excluded extensions : List String}
variable {maxSizeKb : Int}
variable {entries : List (String × Node)}
variable {n : Node}
variable {place : Place}
variable {data : Bytes}

/- Leading alike goes both ways. -/
theorem LeadsAlike.symm
    (h : LeadsAlike s s' place) :
    LeadsAlike s' s place := by
  cases h with
  | file inner data h h' => exact .file inner data h' h
  | noFile h h' => exact .noFile h' h

/- Agreeing links go both ways. -/
theorem LinksAgree.symm
    (h : s.LinksAgree s' n) :
    s'.LinksAgree s n :=
  fun place target hLink => (h place target hLink).symm

------------------------------------------------------------
-- What Is Asked For
------------------------------------------------------------

/- What is asked for at one site is at the other. -/
theorem isSought_of_linksAgree
    (hLinks : s.LinksAgree s' (.directory entries))
    (hExcluded : s.ExcludedAlike s' excluded)
    (h :
      s.tree.IsSought excluded extensions maxSizeKb s.path
        (.directory entries) place data) :
    s'.tree.IsSought excluded extensions maxSizeKb s'.path
      (.directory entries) place data := by
  have hParts :
      ∀ name ∈ excluded,
        name ∉ s.path.parts ∧ name ∉ place := by
    intro name hName
    have hKept := h.kept name hName
    rwa [Path.parts_below, List.mem_append, not_or] at hKept
  have hAbove :=
    hExcluded.mp fun name hName => (hParts name hName).1
  have hSuffix :
      (s.path.below place).suffix =
        (s'.path.below place).suffix := by
    rcases List.eq_nil_or_concat place with
      rfl | ⟨way, name, rfl⟩
    · rcases h.entry with hFile | ⟨target, _, hLink, _⟩
      · cases hFile
      · cases hLink
    · rw [List.concat_eq_append]
      unfold Path.suffix
      rw [Path.name_below_append, Path.name_below_append]
  constructor
  case entry =>
    rcases h.entry with hFile | ⟨target, there, hLink, hFind⟩
    · exact Or.inl hFile
    · cases hLinks place target hLink with
      | file inner data' hHere hThere =>
          rw [hHere] at hFind
          cases hFind
          exact Or.inr ⟨target, _, hLink, hThere⟩
      | noFile hHere _ => exact absurd hFind (hHere _ _)
  case kept =>
    intro name hName
    rw [Path.parts_below, List.mem_append, not_or]
    exact ⟨hAbove name hName, (hParts name hName).2⟩
  case suffix =>
    rw [← hSuffix]
    exact h.suffix
  case size => exact h.size

/- What is asked for leads to one file below both sites. -/
theorem exists_file_at_both
    (hHosts : s.Hosts excluded entries)
    (hHosts' : s'.Hosts excluded entries)
    (hLinks : s.LinksAgree s' (.directory entries))
    (hExcluded : s.ExcludedAlike s' excluded)
    (h :
      s.tree.IsSought excluded extensions maxSizeKb s.path
        (.directory entries) place data) :
    ∃ inner,
      s.tree.find (s.path.below place) =
          .ok (s.place ++ inner, .file data) ∧
        s'.tree.find (s'.path.below place) =
          .ok (s'.place ++ inner, .file data) := by
  have h' := isSought_of_linksAgree hLinks hExcluded h
  -- A file of the directory itself is found where it lies.
  have hOwn :
      ∀ {u : Site}, u.Hosts excluded entries →
        u.tree.IsSought excluded extensions maxSizeKb u.path
            (.directory entries) place data →
          (Node.directory entries).at? place =
              some (.file data) →
            u.tree.find (u.path.below place) =
              .ok (u.place ++ place, .file data) := by
    intro u hHosts hSought hFile
    have hStatus :=
      hSought.status hHosts.wellFormed hHosts.found
        hHosts.answers
    have hNull :=
      hasNull_below_of_find hHosts.wellFormed hHosts.found hFile
    apply
      find_below hHosts.wellFormed hHosts.found _ (by simp)
        (isLong_of_status hNull hStatus)
    rw [at?_below_of_find hHosts.wellFormed hHosts.found]
    exact hFile
  rcases h.entry with hFile | ⟨target, there, hLink, hFind⟩
  · exact ⟨place, hOwn hHosts h hFile, hOwn hHosts' h' hFile⟩
  · cases hLinks place target hLink with
    | file inner data' hHere hThere =>
        rw [hHere] at hFind
        cases hFind
        exact ⟨inner, hHere, hThere⟩
    | noFile hHere _ => exact absurd hFind (hHere _ _)

------------------------------------------------------------
-- Collecting at Both Sites
------------------------------------------------------------

/- Paths below a path are those of places below it. -/
theorem exists_places
    {p : Path}
    {files : List Path}
    (h : ∀ q ∈ files, ∃ place, q = p.below place) :
    ∃ places : List Place, files = places.map p.below := by
  induction files with
  | nil => exact ⟨[], rfl⟩
  | cons q rest ih =>
      rcases h q (by simp) with ⟨place, rfl⟩
      rcases ih fun r hMem => h r (by simp [hMem]) with
        ⟨places, rfl⟩
      exact ⟨place :: places, rfl⟩

/- What is collected at a site is what is asked for there. -/
theorem Hosts.exists_collect
    (hHosts : s.Hosts excluded entries)
    (extensions : List String)
    (maxSizeKb : Int) :
    ∃ places : List Place,
      s.tree.collect
            (.ofExtensions excluded extensions
              (.integer maxSizeKb))
            s.path =
          .ok (places.map s.path.below) ∧
        places.Pairwise WalksBefore ∧
          ∀ place, place ∈ places ↔
            ∃ data,
              s.tree.IsSought excluded extensions maxSizeKb
                s.path (.directory entries) place data := by
  rcases exists_collect_of_entriesAnswer hHosts.wellFormed
      hHosts.found hHosts.answers with
    ⟨files, hCollect⟩
  rcases mem_collect_iff hHosts.wellFormed hHosts.found hCollect
    with ⟨hOrder, hFiles⟩
  have hBelow : ∀ q ∈ files, ∃ place, q = s.path.below place := by
    intro q hMem
    rcases (hFiles q).mp hMem with ⟨place, hPlace, _⟩
    exact ⟨place, hPlace⟩
  rcases exists_places hBelow with ⟨places, rfl⟩
  refine ⟨places, hCollect, ?_, ?_⟩
  · rw [List.pairwise_map] at hOrder
    apply hOrder.imp
    intro place rest hBefore
    exact Path.ListsBefore.below_iff.mp hBefore
  · intro place
    rw [exists_isSought_iff hHosts.wellFormed hHosts.found
      hHosts.answers]
    constructor
    · intro hMem
      rcases (hFiles (s.path.below place)).mp
          (List.mem_map_of_mem hMem) with
        ⟨place', hSame, hTaken⟩
      rw [Path.below_inj] at hSame
      subst hSame
      exact hTaken
    · intro hTaken
      have hMem :=
        (hFiles (s.path.below place)).mpr ⟨place, rfl, hTaken⟩
      rcases List.mem_map.mp hMem with ⟨place', hMem', hSame⟩
      rw [Path.below_inj] at hSame
      rwa [← hSame]

/-
  The files that are collected at two sites are the same, by
  the names below them.
-/
theorem exists_collect_at_both
    (hHosts : s.Hosts excluded entries)
    (hHosts' : s'.Hosts excluded entries)
    (hLinks : s.LinksAgree s' (.directory entries))
    (hExcluded : s.ExcludedAlike s' excluded)
    (extensions : List String)
    (maxSizeKb : Int) :
    ∃ places : List Place,
      s.tree.collect
            (.ofExtensions excluded extensions
              (.integer maxSizeKb))
            s.path =
          .ok (places.map s.path.below) ∧
        s'.tree.collect
            (.ofExtensions excluded extensions
              (.integer maxSizeKb))
            s'.path =
          .ok (places.map s'.path.below) ∧
        ∀ place ∈ places, ∃ inner data,
          s.tree.find (s.path.below place) =
              .ok (s.place ++ inner, .file data) ∧
            s'.tree.find (s'.path.below place) =
              .ok (s'.place ++ inner, .file data) := by
  rcases hHosts.exists_collect extensions maxSizeKb with
    ⟨places, hCollect, hOrder, hPlaces⟩
  rcases hHosts'.exists_collect extensions maxSizeKb with
    ⟨places', hCollect', hOrder', hPlaces'⟩
  have hSame : places = places' := by
    apply WalksBefore.eq_of_mem_iff hOrder hOrder'
    intro place
    rw [hPlaces, hPlaces']
    constructor
    · rintro ⟨data, hSought⟩
      exact
        ⟨data, isSought_of_linksAgree hLinks hExcluded hSought⟩
    · rintro ⟨data, hSought⟩
      exact
        ⟨data,
          isSought_of_linksAgree hLinks.symm hExcluded.symm
            hSought⟩
  subst hSame
  refine ⟨places, hCollect, hCollect', ?_⟩
  intro place hMem
  rcases (hPlaces place).mp hMem with ⟨data, hSought⟩
  rcases exists_file_at_both hHosts hHosts' hLinks hExcluded
      hSought with
    ⟨inner, hFind, hFind'⟩
  exact ⟨inner, data, hFind, hFind'⟩

------------------------------------------------------------
-- Scanning at Both Sites
------------------------------------------------------------

/-
  A path is scanned as a site: it is resolved to the path of
  the site's place, in a tree whose links can all be read.
-/
structure IsScannedAs
    (s : Site)
    (p : Path) : Prop where
  fit : s.tree.LinksFit
  path : s.path = pathOf s.place
  resolves : s.tree.resolve p = .ok s.path

variable {r : Scan.Request}
variable {sel : Selection}
variable {p p' : Path}
variable {order : Option Ordering}

/- A file below a site is reported by its names from there. -/
theorem reportedPath_of_find
    {inner : Place}
    (hScanned : s.IsScannedAs p)
    (hTree : s.tree.WellFormed)
    (hFind :
      s.tree.find (s.path.below place) =
        .ok (s.place ++ inner, .file data)) :
    s.tree.reportedPath s.path (s.path.below place) =
      .ok (relativeText inner) := by
  have hAbsolute : (s.path.below place).isAbsolute = true := by
    rw [Path.isAbsolute_below]
    exact isAbsolute_of_resolve hScanned.resolves
  have hNames :
      s.path.namesTo? (pathOf (s.place ++ inner)) =
        some inner := by
    rw [pathOf_append, ← hScanned.path]
    exact Path.namesTo?_below _ _
  unfold reportedPath
  rw [resolve_of_find_linksFit hTree hScanned.fit hAbsolute hFind]
  dsimp only
  rw [hNames]
  rfl

/- What is collected at a site is scanned. -/
theorem exists_isScanOf_of_collect
    {filter : FileFilter}
    {files : List Path}
    (hScanned : s.IsScannedAs p)
    (hHosts : s.Hosts excluded entries)
    (hRules : sel.build = .ok r.rules)
    (hFilter : r.filter = .ok filter)
    (hJobs : r.jobs.compareInt? 1 = .ok order)
    (hCollect : s.tree.collect filter s.path = .ok files) :
    ∃ result,
      s.tree.scan r p = .ok result ∧
        s.tree.IsScanOf r s.path files result := by
  have hTree := hHosts.wellFormed
  exact
    FileTree.exists_isScanOf_of_collect hTree
      hScanned.fit.directoryLinksFit hRules hScanned.resolves
      hFilter hJobs hCollect
      (baseOf_of_directory hTree hHosts.found)

/-
  At two sites the same files are collected by the names below
  them, and both scans have the same result.
-/
theorem scan_agrees_at_both
    (hHosts : s.Hosts excluded entries)
    (hHosts' : s'.Hosts excluded entries)
    (hLinks : s.LinksAgree s' (.directory entries))
    (hExcluded : s.ExcludedAlike s' excluded)
    (hRules : sel.build = .ok r.rules)
    (hFilter :
      r.filter =
        .ok
          (.ofExtensions excluded extensions
            (.integer maxSizeKb)))
    (hJobs : r.jobs.compareInt? 1 = .ok order) :
    ∃ places : List Place,
      s.tree.collect
            (.ofExtensions excluded extensions
              (.integer maxSizeKb))
            s.path =
          .ok (places.map s.path.below) ∧
        s'.tree.collect
            (.ofExtensions excluded extensions
              (.integer maxSizeKb))
            s'.path =
          .ok (places.map s'.path.below) ∧
        ∀ p p', s.IsScannedAs p → s'.IsScannedAs p' →
          ∃ result,
            s.tree.scan r p = .ok result ∧
              s'.tree.scan r p' = .ok result := by
  rcases exists_collect_at_both hHosts hHosts' hLinks hExcluded
      extensions maxSizeKb with
    ⟨places, hCollect, hCollect', hFiles⟩
  refine ⟨places, hCollect, hCollect', ?_⟩
  intro p p' hScanned hScanned'
  rcases exists_isScanOf_of_collect hScanned hHosts hRules hFilter
      hJobs hCollect with
    ⟨result, hScan, hResult⟩
  rcases exists_isScanOf_of_collect hScanned' hHosts' hRules
      hFilter hJobs hCollect' with
    ⟨result', hScan', hResult'⟩
  -- Both report of a place what is found in one file, by one
  -- path.
  have hReports :
      ∀ place ∈ places, ∀ v,
        s.tree.Reports r s.path (s.path.below place) v ↔
          s'.tree.Reports r s'.path (s'.path.below place) v := by
    intro place hMem v
    rcases hFiles place hMem with ⟨inner, data, hFind, hFind'⟩
    rw [reports_iff (status_of_find hHosts.wellFormed hFind)
        (reportedPath_of_find hScanned hHosts.wellFormed hFind),
      reports_iff (status_of_find hHosts'.wellFormed hFind')
        (reportedPath_of_find hScanned' hHosts'.wellFormed
          hFind')]
  have hSame : result = result' := by
    have hViolations :
        result.violations = result'.violations := by
      apply
        Violation.Before.eq_of_mem_iff hResult.order
          hResult'.order
      intro v
      rw [hResult.mem_iff, hResult'.mem_iff]
      constructor
      · rintro ⟨f, hMem, hReport⟩
        rcases List.mem_map.mp hMem with ⟨place, hPlace, rfl⟩
        exact
          ⟨s'.path.below place, List.mem_map_of_mem hPlace,
            (hReports place hPlace v).mp hReport⟩
      · rintro ⟨f, hMem, hReport⟩
        rcases List.mem_map.mp hMem with ⟨place, hPlace, rfl⟩
        exact
          ⟨s.path.below place, List.mem_map_of_mem hPlace,
            (hReports place hPlace v).mpr hReport⟩
    have hCount : result.filesScanned = result'.filesScanned := by
      rw [hResult.count, hResult'.count, List.length_map,
        List.length_map]
    cases result
    cases result'
    cases hViolations
    cases hCount
    rfl
  exact ⟨result, hScan, hSame ▸ hScan'⟩

end Sites

------------------------------------------------------------
-- A Project at Two Places
------------------------------------------------------------

/- A project with links, at one place. -/
def linkedSite : Site :=
  ⟨linkedTree, ⟨.root, ["proj"]⟩, ["proj"]⟩

/- The same project further down, in another tree. -/
def movedSite : Site :=
  ⟨⟨.directory [("home", .directory [("me", linkedProject)])], []⟩,
    ⟨.root, ["home", "me"]⟩, ["home", "me"]⟩

/- The project stands at the first place. -/
theorem linkedSite_hosts :
    linkedSite.Hosts ["lib"] linkedEntries where
  wellFormed := wellFormed_linkedTree
  found := rfl
  answers := entriesAnswer_of_places ["lib"] (by decide)

/- The project stands at the second place. -/
theorem movedSite_hosts :
    movedSite.Hosts ["lib"] linkedEntries where
  wellFormed :=
    ⟨wellFormed_of_places _ (by decide), ⟨_, rfl⟩⟩
  found := rfl
  answers := entriesAnswer_of_places ["lib"] (by decide)

/- The links of the project lead alike at both places. -/
theorem linkedSite_linksAgree_movedSite :
    linkedSite.LinksAgree movedSite (.directory linkedEntries) := by
  intro place target hLink
  have hMem := mem_places_of_at? hLink
  have hPlace : place = ["b.c"] ∨ place = ["gone.c"] := by
    simp [linkedEntries, Node.places, entryPlaces] at hMem
    tauto
  rcases hPlace with rfl | rfl
  · exact .file ["a.c"] [47, 47, 120] rfl rfl
  · apply LeadsAlike.noFile
    · intro there data hFind
      cases hFind
    · intro there data hFind
      cases hFind

/- The project is scanned alike at both places. -/
theorem scan_agrees_at_both_linked :
    linkedSite.Hosts ["lib"] linkedEntries ∧
      movedSite.Hosts ["lib"] linkedEntries ∧
      linkedSite.IsScannedAs ⟨.here, []⟩ ∧
      movedSite.IsScannedAs ⟨.here, ["home", "me"]⟩ ∧
      ∃ (places : List Place) (result : ScanResult),
        linkedTree.collect
              (.ofExtensions ["lib"] ["C"] (.integer 1024))
              linkedSite.path =
            .ok (places.map linkedSite.path.below) ∧
          movedSite.tree.collect
              (.ofExtensions ["lib"] ["C"] (.integer 1024))
              movedSite.path =
            .ok (places.map movedSite.path.below) ∧
          linkedTree.scan linkedRequest ⟨.here, []⟩ = .ok result ∧
          movedSite.tree.scan linkedRequest
              ⟨.here, ["home", "me"]⟩ =
            .ok result := by
  have hScanned : linkedSite.IsScannedAs ⟨.here, []⟩ :=
    ⟨linksFit_of_places (by decide), rfl, rfl⟩
  have hMoved : movedSite.IsScannedAs ⟨.here, ["home", "me"]⟩ :=
    ⟨linksFit_of_places (by decide), rfl, rfl⟩
  have hExcluded : linkedSite.ExcludedAlike movedSite ["lib"] :=
    iff_of_true (by decide) (by decide)
  have hRules : Selection.build {} = .ok linkedRequest.rules := rfl
  rcases scan_agrees_at_both linkedSite_hosts movedSite_hosts
      linkedSite_linksAgree_movedSite hExcluded hRules rfl rfl with
    ⟨places, hCollect, hCollect', hScans⟩
  rcases hScans _ _ hScanned hMoved with
    ⟨result, hScan, hScan'⟩
  exact
    ⟨linkedSite_hosts, movedSite_hosts, hScanned, hMoved, places,
      result, hCollect, hCollect', hScan, hScan'⟩

/- One directory with a file in it, at two places of one tree. -/
def twinTree : FileTree :=
  ⟨.directory
      [("build",
        .directory
          [("proj", .directory [("a.c", .file [47, 47, 120])])]),
        ("src",
          .directory
            [("proj", .directory [("a.c", .file [47, 47, 120])])])],
    []⟩

/-
  A directory of an excluded name is not left out by itself
  only.  What lies below it is not collected either when the
  work starts further down.
-/
theorem collect_differs_by_place :
    twinTree.root.at? ["build", "proj"] =
        twinTree.root.at? ["src", "proj"] ∧
      twinTree.collect
          (.ofExtensions ["build"] [".c"] (.integer 1024))
          ⟨.here, ["build", "proj"]⟩ =
        .ok [] ∧
      twinTree.collect
          (.ofExtensions ["build"] [".c"] (.integer 1024))
          ⟨.here, ["src", "proj"]⟩ =
        .ok [⟨.here, ["src", "proj", "a.c"]⟩] := by
  have hTree : twinTree.WellFormed :=
    ⟨wellFormed_of_places _ (by decide), ⟨_, rfl⟩⟩
  refine ⟨rfl, ?_, ?_⟩
  · rw [collect_eq_taken hTree rfl, candidatesBelow_singleton]
    rfl
  · rw [collect_eq_taken hTree rfl, candidatesBelow_singleton]
    rfl

end Site

end CommentLint
