import CommentLint.Proofs.FileTree.LinkFree
import CommentLint.Proofs.Scan.WholeScans

/-
  Files that are scanned one by one.

  A file that is scanned by itself gives the violations that
  the scan of its directory reports of it.  Only their path is
  another: the name of the file in place of the names below
  the directory.  Both end in one suffix, and so the dialect
  is the same.

  Key definitions include:
    * `Violation.atPath`

  Key results include:
    * `Scan.lintBytes_atPath`
    * `Dialect.ofPath_relativeText`
    * `FileTree.IsScanOf.mem_iff_of_path`
    * `FileTree.scan_file_agrees`
    * `FileTree.scan_misses_collected`
-/

namespace CommentLint

open Node

------------------------------------------------------------
-- Violations at Another Path
------------------------------------------------------------

/- A violation as it is reported by another path. -/
def Violation.atPath
    (path : String)
    (v : Violation) : Violation :=
  { v with location := { v.location with path := path } }

/- Violations of one path keep their order at another. -/
theorem Violation.pairwise_before_atPath
    {found : List Violation}
    {path : String}
    (h : found.Pairwise Violation.Before)
    (hPath : ∀ v ∈ found, v.location.path = path)
    (path' : String) :
    (found.map (Violation.atPath path')).Pairwise
      Violation.Before := by
  rw [List.pairwise_map]
  apply h.imp_of_mem
  intro v w hMem hMem' hBefore
  rcases hBefore with hLt | ⟨_, hOffset⟩
  · rw [hPath v hMem, hPath w hMem'] at hLt
    exact absurd hLt (String.lt_irrefl path)
  · exact Or.inr ⟨rfl, hOffset⟩

section Renaming

variable {sel : Selection}
variable {rules : List Rule}
variable {data : Bytes}
variable {path path' : String}

/- By another path a rule finds the same, at that path. -/
theorem CommentSpacing.violations_atPath
    (severity : Severity)
    (f : SourceFile)
    (path : String) :
    (rule severity).violations { f with path := path } =
      ((rule severity).violations f).map
        (Violation.atPath path) := by
  have hLocation :
      ∀ offset,
        (rule severity).violationAt { f with path := path }
            offset =
          ((rule severity).violationAt f offset).atPath path :=
    fun _ => rfl
  unfold Rule.violations
  rw [List.map_filterMap]
  change
    ((rule severity).findings f).filterMap _ =
      ((rule severity).findings f).filterMap _
  apply List.filterMap_congr
  intro finding _
  cases finding with
  | flagged offset => exact congrArg some (hLocation offset)
  | unresolved span => rfl

/- Linting a file is finding the violations of its rules. -/
theorem lint_read_eq_flatMap
    (hRules : sel.build = .ok rules)
    (data : Bytes)
    (path : String) :
    lint rules (SourceFile.read data path) =
      rules.flatMap fun r =>
        r.violations (SourceFile.read data path) :=
  lint_eq_flatMap (SourceFile.scans_ofBytes data path none) hRules

/- Linting finds the same by every path of one dialect. -/
theorem lint_atPath
    (hRules : sel.build = .ok rules)
    (h : Dialect.ofPath path = Dialect.ofPath path') :
    lint rules (SourceFile.read data path') =
      (lint rules (SourceFile.read data path)).map
        (Violation.atPath path') := by
  have hRead :
      SourceFile.read data path' =
        { SourceFile.read data path with path := path' } := by
    unfold SourceFile.read SourceFile.ofBytes
    simp [h]
  rw [lint_read_eq_flatMap hRules, lint_read_eq_flatMap hRules,
    hRead]
  rcases sel.rules_of_build hRules with
    rfl | ⟨severity, rfl⟩
  · rfl
  · rw [List.flatMap_singleton, List.flatMap_singleton]
    exact CommentSpacing.violations_atPath severity _ path'

/- Whether directives are heeded or not, the same is found. -/
theorem Scan.lintBytes_atPath
    (inlineIgnore : Bool)
    (hRules : sel.build = .ok rules)
    (h : Dialect.ofPath path = Dialect.ofPath path') :
    Scan.lintBytes rules inlineIgnore data path' =
      (Scan.lintBytes rules inlineIgnore data path).map
        (Violation.atPath path') := by
  unfold Scan.lintBytes
  rw [lint_atPath hRules h]
  cases inlineIgnore with
  | false => rfl
  | true =>
      -- A directive looks at the line and the rule alone.
      have hSame :
          (fun v => !Suppression.suppresses
              (Suppression.ofData data) v) ∘
              Violation.atPath path' =
            fun v => !Suppression.suppresses
              (Suppression.ofData data) v :=
        rfl
      change
        List.filter _ (List.map _ _) =
          List.map _ (List.filter _ _)
      rw [List.filter_map, hSame]

end Renaming

------------------------------------------------------------
-- Names and Dialects
------------------------------------------------------------

/- A name is its own text. -/
theorem FileTree.relativeText_singleton
    (name : String) :
    FileTree.relativeText [name] = name := by
  simp [FileTree.relativeText, Path.text, Anchor.text]

/- The dialect of a file follows from its name alone. -/
theorem Dialect.ofPath_relativeText
    {place : Place}
    {name : String}
    (h : ∀ other ∈ place ++ [name], IsEntryName other) :
    Dialect.ofPath (FileTree.relativeText (place ++ [name])) =
      Dialect.ofPath name := by
  have hName : Path.ofString name = ⟨.here, [name]⟩ := by
    have hOnly : ∀ other ∈ [name], IsEntryName other :=
      fun other hMem => h other (List.mem_append_right _ hMem)
    have hRead := FileTree.ofString_relativeText hOnly
    rwa [FileTree.relativeText_singleton] at hRead
  unfold Dialect.ofPath
  rw [FileTree.ofString_relativeText h, hName]
  simp [Path.suffix, Path.name]

namespace FileTree

------------------------------------------------------------
-- One File of a Scan
------------------------------------------------------------

section Single

variable {t : FileTree}
variable {r : Scan.Request}
variable {sel : Selection}
variable {p root base f : Path}
variable {filter : FileFilter}
variable {files : List Path}
variable {result : ScanResult}
variable {data : Bytes}
variable {relative : String}
variable {order : Option Ordering}
variable {v : Violation}

/- What a scan reports by the path of a file is what is in it. -/
theorem IsScanOf.mem_iff_of_path
    (h : t.IsScanOf r base files result)
    (hFiles : t.AreFilesBelow root files)
    (hTree : t.WellFormed)
    (hFit : t.DirectoryLinksFit)
    (hRules : sel.build = .ok r.rules)
    (hMem : f ∈ files)
    (hFile : t.status f = .ok (some (.file data)))
    (hPath : t.reportedPath base f = .ok relative) :
    v ∈ result.violations ∧ v.location.path = relative ↔
      v ∈ Scan.lintBytes r.rules r.inlineIgnore data
        relative := by
  have hOwn :
      ∀ {data : Bytes} {path : String},
        v ∈ Scan.lintBytes r.rules r.inlineIgnore data path →
          v.location.path = path := by
    intro data path hIn
    rcases Scan.exists_offset_of_mem_lintBytes hRules hIn with
      ⟨severity, offset, _, rfl⟩
    exact SourceFile.location_path _ offset
  rw [h.mem_iff]
  constructor
  · rintro ⟨⟨f', hMem', hReports⟩, hSame⟩
    rcases hFiles.file f' hMem' with ⟨data', hFile'⟩
    rcases hFiles.exists_reportedPath hTree hFit hMem' base with
      ⟨relative', hPath'⟩
    rw [reports_iff hFile' hPath'] at hReports
    rw [hOwn hReports] at hSame
    subst hSame
    rcases hFiles.below f hMem with ⟨place, rfl⟩
    rcases hFiles.below f' hMem' with ⟨place', rfl⟩
    have hData :=
      data_eq_of_reportedPath_eq hTree hFit hFiles.absolute hFile
        hFile' (hPath.trans hPath'.symm)
    rwa [hData]
  · intro hIn
    exact
      ⟨⟨f, hMem, (reports_iff hFile hPath).mpr hIn⟩, hOwn hIn⟩

/- A file that a walk takes is collected by its own path. -/
theorem collect_of_takes
    (h : t.takes filter f = .ok true) :
    t.collect filter f = .ok [f] := by
  rcases exists_file_of_takes h with ⟨data, hFile, hSize, _⟩
  unfold collect
  rw [hFile]
  dsimp only
  rw [hSize]
  rfl

/- A path that is resolved to itself is reported by its names. -/
theorem reportedPath_below
    {place : Place}
    (h : t.resolve (base.below place) = .ok (base.below place)) :
    t.reportedPath base (base.below place) =
      .ok (relativeText place) := by
  unfold reportedPath
  rw [h]
  dsimp only
  rw [Path.namesTo?_below]
  rfl

/- What is collected below a directory lies there by names. -/
theorem exists_names_of_mem_collect
    {place : Place}
    {entries : List (String × Node)}
    (hTree : t.WellFormed)
    (hFind : t.find root = .ok (place, .directory entries))
    (hCollect : t.collect filter root = .ok files)
    (hMem : f ∈ files) :
    ∃ way name,
      f = root.below (way ++ [name]) ∧
        (∀ other ∈ way ++ [name], IsEntryName other) ∧
          t.takes filter f = .ok true := by
  rcases ((mem_collect_iff hTree hFind hCollect).2 f).mp hMem with
    ⟨inner, rfl, hInner, hTakes⟩
  rcases List.eq_nil_or_concat inner with
    rfl | ⟨way, name, rfl⟩
  · exact absurd rfl hInner.ne_nil
  · rw [List.concat_eq_append] at *
    refine ⟨way, name, rfl, ?_, hTakes⟩
    rcases hInner.entry with ⟨m, hEntry, _⟩
    intro other hOther
    exact
      (hTree.root.at? (at?_of_find hTree hFind)).isEntryName_of_mem
        hEntry hOther

/-
  What a file gives by its own name is what the scan of many
  reports of it, at that name.
-/
theorem IsScanOf.violations_eq_atPath
    {base' : Path}
    {name : String}
    {whole single : ScanResult}
    (hWhole : t.IsScanOf r base files whole)
    (hSingle : t.IsScanOf r base' [f] single)
    (hFiles : t.AreFilesBelow root files)
    (hTree : t.WellFormed)
    (hFit : t.DirectoryLinksFit)
    (hRules : sel.build = .ok r.rules)
    (hMem : f ∈ files)
    (hPath : t.reportedPath base f = .ok relative)
    (hName : t.reportedPath base' f = .ok name)
    (hDialect : Dialect.ofPath relative = Dialect.ofPath name) :
    single.violations =
      (whole.violations.filter fun v =>
        v.location.path == relative).map
        (Violation.atPath name) := by
  rcases hFiles.file f hMem with ⟨data, hFile⟩
  apply Violation.Before.eq_of_mem_iff hSingle.order
  · apply
      Violation.pairwise_before_atPath (hWhole.order.filter _)
    intro v hIn
    exact eq_of_beq (List.mem_filter.mp hIn).2
  · intro v
    have hAtPath :
        Scan.lintBytes r.rules r.inlineIgnore data name = _ :=
      Scan.lintBytes_atPath r.inlineIgnore hRules hDialect
    rw [hSingle.mem_iff]
    simp only [List.mem_singleton, exists_eq_left]
    rw [reports_iff hFile hName, hAtPath, List.mem_map,
      List.mem_map]
    constructor
    · rintro ⟨w, hIn, rfl⟩
      rw [← hWhole.mem_iff_of_path hFiles hTree hFit hRules hMem
        hFile hPath] at hIn
      exact
        ⟨w, List.mem_filter.mpr ⟨hIn.1, beq_iff_eq.mpr hIn.2⟩,
          rfl⟩
    · rintro ⟨w, hIn, rfl⟩
      rw [List.mem_filter, beq_iff_eq,
        hWhole.mem_iff_of_path hFiles hTree hFit hRules hMem hFile
          hPath] at hIn
      exact ⟨w, hIn, rfl⟩

/-
  Without links, a file of a directory that is scanned by
  itself is one file, and gives the violations that the scan
  of the directory reports by its path, in their order.
-/
theorem scan_file_agrees
    (hTree : t.WellFormed)
    (hFree : t.root.LinkFree)
    (hRules : sel.build = .ok r.rules)
    (hResolve : t.resolve p = .ok root)
    (hRoot : t.isDirectory root = .ok true)
    (hFilter : r.filter = .ok filter)
    (hJobs : r.jobs.compareInt? 1 = .ok order)
    (hCollect : t.collect filter root = .ok files)
    (hMem : f ∈ files) :
    ∃ whole rest,
      t.scan r p = .ok whole ∧
        root.namesTo? f = some rest ∧
        t.resolve f = .ok f ∧
        ∀ g, t.resolve g = .ok f →
          ∃ single,
            t.scan r g = .ok single ∧
              single.filesScanned = 1 ∧
              single.violations =
                (whole.violations.filter fun v =>
                  v.location.path == relativeText rest).map
                  (Violation.atPath f.name) := by
  have hFit := (linksFit_of_linkFree hFree).directoryLinksFit
  have hFiles := areFilesBelow_of_collect hTree hResolve hCollect
  rcases exists_find_of_isDirectory hRoot with
    ⟨place, entries, hFind⟩
  rcases exists_names_of_mem_collect hTree hFind hCollect hMem
    with ⟨way, name, rfl, hNames, hTakes⟩
  rcases exists_file_of_takes hTakes with ⟨data, hFile, _⟩
  rcases exists_find_of_status hFile with ⟨_, there, hThere⟩
  have hSelf :=
    resolve_below_eq_self hTree hFree hResolve hNames hThere
  -- Seen from the directory above it, the file is its name.
  have hName :
      t.reportedPath (root.below way)
          (root.below (way ++ [name])) =
        .ok name := by
    rw [← Path.below_below] at hSelf ⊢
    rw [reportedPath_below hSelf, relativeText_singleton]
  have hBase :
      t.baseOf (root.below (way ++ [name])) =
        .ok (root.below way) := by
    rw [baseOf_of_file hFile, Path.parent_below_append]
  rcases
      exists_isScanOf_of_collect hTree hFit hRules hResolve
        hFilter hJobs hCollect
        (baseOf_of_directory hTree hFind) with
    ⟨whole, hWholeScan, hWhole⟩
  refine
    ⟨whole, way ++ [name], hWholeScan, root.namesTo?_below _,
      hSelf, ?_⟩
  intro g hNamed
  rcases
      exists_isScanOf_of_collect hTree hFit hRules hNamed hFilter
        hJobs (collect_of_takes hTakes) hBase with
    ⟨single, hSingleScan, hSingle⟩
  refine ⟨single, hSingleScan, hSingle.count, ?_⟩
  rw [Path.name_below_append]
  exact
    hWhole.violations_eq_atPath hSingle hFiles hTree hFit hRules
      hMem (reportedPath_below hSelf) hName
      (Dialect.ofPath_relativeText hNames)

end Single

------------------------------------------------------------
-- A File in a Subdirectory
------------------------------------------------------------

/-
  A directory that is worked in, with a file further down.
  Its name is one that is often excluded.
-/
def buildTree : FileTree :=
  ⟨.directory
      [("build",
        .directory
          [("proj", .directory [("a.c", .file [47, 47, 120])])])],
    ["build"]⟩

/- The tree is well-formed. -/
theorem wellFormed_buildTree :
    buildTree.WellFormed :=
  ⟨wellFormed_of_places _ (by decide), ⟨_, rfl⟩⟩

/- There is no link in the tree. -/
theorem linkFree_buildTree :
    buildTree.root.LinkFree := by
  intro place target hLink
  have hMem := mem_places_of_at? hLink
  simp [buildTree, places, entryPlaces] at hMem

/- A request for files with a name that is excluded. -/
def requestWithout (excluded : String) : Scan.Request :=
  { rules := Catalog.rules
    exclude := [.text excluded]
    includeExtensions := [.text ".c"]
    maxFileSizeKb := .integer 1024
    inlineIgnore := false
    jobs := .integer 1 }

/- The file is collected where no name on the way is excluded. -/
theorem collect_buildTree :
    buildTree.collect (.ofExtensions ["out"] [".c"] (.integer 1024))
        ⟨.root, ["build"]⟩ =
      .ok [⟨.root, ["build", "proj", "a.c"]⟩] := by
  rw [collect_eq_taken wellFormed_buildTree rfl,
    candidatesBelow_singleton, candidatesBelow_singleton]
  rfl

/- The file is scanned with its directory and by itself. -/
theorem scan_file_agrees_nested :
    buildTree.WellFormed ∧ buildTree.root.LinkFree ∧
      ∃ whole rest,
        buildTree.scan (requestWithout "out") ⟨.here, []⟩ =
            .ok whole ∧
          (Path.mk .root ["build"]).namesTo?
              ⟨.root, ["build", "proj", "a.c"]⟩ =
            some rest ∧
          buildTree.resolve ⟨.root, ["build", "proj", "a.c"]⟩ =
            .ok ⟨.root, ["build", "proj", "a.c"]⟩ ∧
          ∀ g,
            buildTree.resolve g =
                .ok ⟨.root, ["build", "proj", "a.c"]⟩ →
              ∃ single,
                buildTree.scan (requestWithout "out") g =
                    .ok single ∧
                  single.filesScanned = 1 ∧
                  single.violations =
                    (whole.violations.filter fun v =>
                      v.location.path == relativeText rest).map
                      (Violation.atPath "a.c") :=
  ⟨wellFormed_buildTree, linkFree_buildTree,
    @scan_file_agrees buildTree (requestWithout "out") {}
      ⟨.here, []⟩ _ _ _ _ _ wellFormed_buildTree
      linkFree_buildTree rfl rfl rfl rfl rfl collect_buildTree
      (List.mem_singleton.mpr rfl)⟩

/-
  Names above the directory that is scanned are excluded as
  well.  A file that is collected by the path as it is given,
  and that gives a violation by itself, is missed by the scan
  of the directory.
-/
theorem scan_misses_collected :
    buildTree.root.LinkFree ∧
      buildTree.collect
          (.ofExtensions ["build"] [".c"] (.integer 1024))
          ⟨.here, []⟩ =
        .ok [⟨.here, ["proj", "a.c"]⟩] ∧
      buildTree.scan (requestWithout "build") ⟨.here, []⟩ =
        .ok ⟨[], 0⟩ ∧
      ∃ single v,
        buildTree.scan (requestWithout "build")
            ⟨.here, ["proj", "a.c"]⟩ =
          .ok single ∧ v ∈ single.violations := by
  refine ⟨linkFree_buildTree, ?_, ?_, ?_⟩
  · rw [collect_eq_taken wellFormed_buildTree rfl,
      candidatesBelow_singleton, candidatesBelow_singleton]
    rfl
  · have hCollect :
        buildTree.collect
            (.ofExtensions ["build"] [".c"] (.integer 1024))
            ⟨.root, ["build"]⟩ =
          .ok [] := by
      rw [collect_eq_taken wellFormed_buildTree rfl,
        candidatesBelow_singleton]
      rfl
    rw [scan_eq_scanFiles rfl rfl rfl hCollect rfl rfl]
    exact scanFiles_nil _ _
  · have hRules : Selection.build {} = .ok Catalog.rules := rfl
    have hFile :
        buildTree.status ⟨.root, ["build", "proj", "a.c"]⟩ =
          .ok (some (.file [47, 47, 120])) :=
      rfl
    have hPath :
        buildTree.reportedPath ⟨.root, ["build", "proj"]⟩
            ⟨.root, ["build", "proj", "a.c"]⟩ =
          .ok "a.c" :=
      rfl
    have hTakes :
        buildTree.takes
            (.ofExtensions ["build"] [".c"] (.integer 1024))
            ⟨.root, ["build", "proj", "a.c"]⟩ =
          .ok true :=
      rfl
    have hFiles :
        buildTree.AreFilesBelow ⟨.root, ["build", "proj", "a.c"]⟩
          [⟨.root, ["build", "proj", "a.c"]⟩] :=
      areFilesBelow_of_collect wellFormed_buildTree
        (p := ⟨.here, ["proj", "a.c"]⟩) rfl
        (collect_of_takes hTakes)
    rcases hFiles.exists_isScanOf wellFormed_buildTree
        (linksFit_of_linkFree linkFree_buildTree).directoryLinksFit
        (r := requestWithout "build") hRules
        ⟨.root, ["build", "proj"]⟩ with
      ⟨pairs, single, hPairs, hScan, hSingle⟩
    refine
      ⟨single,
        (CommentSpacing.rule .warning).violationAt
          (SourceFile.read [47, 47, 120] "a.c") 2,
        ?_, ?_⟩
    · rw [scan_eq_scanFiles rfl rfl rfl (collect_of_takes hTakes)
        rfl hPairs]
      exact hScan
    · rw [hSingle.mem_iff]
      refine
        ⟨⟨.root, ["build", "proj", "a.c"]⟩, by simp,
          (reports_iff hFile hPath).mpr ?_⟩
      change _ ∈ lint Catalog.rules (SourceFile.read _ _)
      rw [lint_read_eq_flatMap hRules]
      decide

end FileTree

end CommentLint
