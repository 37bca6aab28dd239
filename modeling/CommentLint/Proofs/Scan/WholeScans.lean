import CommentLint.Proofs.Attempts
import CommentLint.Proofs.FileTree.LongPaths
import CommentLint.Proofs.Rule.FileOrder
import CommentLint.Proofs.Scan.Collecting
import CommentLint.Proofs.Scan.LineDirectives
import CommentLint.Proofs.Scan.Merging
import CommentLint.Proofs.Scan.ReportedPaths

/-
  What a scan reports of all files.

  Every violation of a file that is collected is reported, and
  no other, in strict order of path and offset.  Several links
  to one file are reported by one path.  Their violations are
  the same, and merging keeps one copy of each.

  Two files have two paths as long as links to directories can
  be read.  One that lies too deep is passed over, and the
  `..` behind it then leads to another file than the system
  opens.

  Key definitions include:
    * `FileTree.IsScanOf`

  Key results include:
    * `exists_violationAt_of_mem_lint`
    * `exists_offset_of_mem_lint`
    * `FileTree.exists_scanFile_of_scanFiles`
    * `FileTree.exists_isScanOf`
    * `FileTree.scan_eq_scanFiles`
    * `FileTree.scan_reports_collected`
    * `FileTree.scan_reports_of_linksFilesOnly`
    * `FileTree.scan_loses_deepComment`
-/

namespace CommentLint

open Node

------------------------------------------------------------
-- Violations of One File
------------------------------------------------------------

section File

variable {f : SourceFile}
variable {sel : Selection}
variable {rules : List Rule}
variable {v : Violation}
variable {inlineIgnore : Bool}
variable {data : Bytes}
variable {relative : String}

/- A violation of a file is that of a rule at an offset. -/
theorem exists_violationAt_of_mem_lint
    (hMem : v ∈ lint rules f) :
    ∃ q ∈ rules, ∃ offset, v = q.violationAt f offset := by
  unfold lint at hMem
  rw [List.mem_mergeSort] at hMem
  rcases List.mem_flatMap.mp hMem with ⟨q, hRule, hMem⟩
  unfold Rule.violations at hMem
  rcases List.mem_filterMap.mp hMem with
    ⟨offset | span, _, hValue⟩
  · cases hValue
    exact ⟨q, hRule, offset, rfl⟩
  · cases hValue

/- The rule is the only one there is. -/
theorem exists_offset_of_mem_lint
    (hRules : sel.build = .ok rules)
    (hMem : v ∈ lint rules f) :
    ∃ severity offset,
      rules = [CommentSpacing.rule severity] ∧
        v = (CommentSpacing.rule severity).violationAt f
          offset := by
  rcases exists_violationAt_of_mem_lint hMem with
    ⟨q, hRule, offset, rfl⟩
  rcases sel.rules_of_build hRules with
    rfl | ⟨severity, rfl⟩
  · cases hRule
  · rw [List.mem_singleton.mp hRule]
    exact ⟨severity, offset, rfl, rfl⟩

/- Directives only take violations away. -/
theorem Scan.lintBytes_sublist :
    (Scan.lintBytes rules inlineIgnore data relative).Sublist
      (lint rules (SourceFile.read data relative)) := by
  unfold Scan.lintBytes
  cases inlineIgnore with
  | true => exact List.filter_sublist
  | false => exact .refl _

/- What is found in the bytes of a file at a path. -/
theorem Scan.exists_offset_of_mem_lintBytes
    (hRules : sel.build = .ok rules)
    (hMem :
      v ∈ Scan.lintBytes rules inlineIgnore data relative) :
    ∃ severity offset,
      rules = [CommentSpacing.rule severity] ∧
        v =
          (CommentSpacing.rule severity).violationAt
            (SourceFile.read data relative) offset :=
  exists_offset_of_mem_lint hRules
    (Scan.lintBytes_sublist.subset hMem)

end File

namespace FileTree

------------------------------------------------------------
-- Files That Are Scanned
------------------------------------------------------------

/- Files below an absolute path, each of which can be read. -/
structure AreFilesBelow
    (t : FileTree)
    (root : Path)
    (files : List Path) : Prop where
  absolute : root.isAbsolute = true
  file : ∀ f ∈ files, ∃ data, t.status f = .ok (some (.file data))
  below : ∀ f ∈ files, ∃ place, f = root.below place

/- A violation of a file, by the file's path from a directory. -/
def Reports
    (t : FileTree)
    (r : Scan.Request)
    (base f : Path)
    (v : Violation) : Prop :=
  ∃ relative found,
    t.reportedPath base f = .ok relative ∧
      t.scanFile r.rules r.inlineIgnore f relative = .ok found ∧
        v ∈ found

section Files

variable {t : FileTree}
variable {r : Scan.Request}
variable {sel : Selection}
variable {root base f f' : Path}
variable {files : List Path}
variable {v w : Violation}
variable {data : Bytes}
variable {relative : String}

/- What is collected below a resolved path can be scanned. -/
theorem areFilesBelow_of_collect
    {p : Path}
    {filter : FileFilter}
    (hTree : t.WellFormed)
    (hResolve : t.resolve p = .ok root)
    (hCollect : t.collect filter root = .ok files) :
    t.AreFilesBelow root files where
  absolute := isAbsolute_of_resolve hResolve
  file := fun _ hMem =>
    (exists_file_of_mem_collect hTree hCollect hMem).1
  below := fun _ hMem =>
    (exists_file_of_mem_collect hTree hCollect hMem).2

/- Every file below an absolute path is reported by some path. -/
theorem AreFilesBelow.exists_reportedPath
    (hFiles : t.AreFilesBelow root files)
    (hTree : t.WellFormed)
    (hFit : t.DirectoryLinksFit)
    (hMem : f ∈ files)
    (base : Path) :
    ∃ relative, t.reportedPath base f = .ok relative := by
  rcases hFiles.file f hMem with ⟨data, hFile⟩
  rcases hFiles.below f hMem with ⟨place, rfl⟩
  have hAbsolute : (root.below place).isAbsolute = true :=
    hFiles.absolute
  rcases exists_find_of_status hFile with ⟨_, there, hFind⟩
  rcases FileTree.exists_reportedPath hTree hFit hAbsolute hFind
      base with
    ⟨q, _, hPath⟩
  exact ⟨_, hPath⟩

/- The violations of a file are those found in its bytes. -/
theorem reports_iff
    (hFile : t.status f = .ok (some (.file data)))
    (hReported : t.reportedPath base f = .ok relative) :
    t.Reports r base f v ↔
      v ∈ Scan.lintBytes r.rules r.inlineIgnore data
        relative := by
  have hScan :
      t.scanFile r.rules r.inlineIgnore f relative = _ :=
    scanFile_of_read _ _ (read_of_status hFile)
  constructor
  · rintro ⟨relative', found, hReported', hFound, hMem⟩
    rw [hReported] at hReported'
    cases hReported'
    rw [hScan] at hFound
    cases hFound
    exact hMem
  · intro hMem
    exact ⟨relative, _, hReported, hScan, hMem⟩

/-
  Violations of files with one key are the same: their path
  tells the file, and their offset the violation in it.
-/
theorem AreFilesBelow.eq_of_key_eq
    (hFiles : t.AreFilesBelow root files)
    (hTree : t.WellFormed)
    (hFit : t.DirectoryLinksFit)
    (hRules : sel.build = .ok r.rules)
    (hMem : f ∈ files)
    (hMem' : f' ∈ files)
    (hReports : t.Reports r base f v)
    (hReports' : t.Reports r base f' w)
    (hKey : v.key = w.key) :
    v = w := by
  rcases hFiles.file f hMem with ⟨data, hFile⟩
  rcases hFiles.file f' hMem' with ⟨data', hFile'⟩
  rcases hFiles.below f hMem with ⟨place, rfl⟩
  rcases hFiles.below f' hMem' with ⟨place', rfl⟩
  rcases hFiles.exists_reportedPath hTree hFit hMem base with
    ⟨relative, hPath⟩
  rcases hFiles.exists_reportedPath hTree hFit hMem' base with
    ⟨relative', hPath'⟩
  rw [reports_iff hFile hPath] at hReports
  rw [reports_iff hFile' hPath'] at hReports'
  rcases Scan.exists_offset_of_mem_lintBytes hRules hReports with
    ⟨severity, offset, hRule, rfl⟩
  rcases Scan.exists_offset_of_mem_lintBytes hRules hReports'
    with ⟨severity', offset', hRule', rfl⟩
  have hRelative : relative = relative' := by
    simpa [Violation.key, Rule.violationAt, SourceFile.read,
      SourceFile.ofBytes] using
      congrArg Violation.Key.path hKey
  have hOffset : offset = offset' := by
    simpa [Violation.key, Rule.violationAt] using
      congrArg Violation.Key.offset hKey
  subst hRelative hOffset
  have hData :=
    data_eq_of_reportedPath_eq hTree hFit hFiles.absolute hFile
      hFile' (hPath.trans hPath'.symm)
  subst hData
  rw [hRule] at hRule'
  cases hRule'
  rfl

end Files

------------------------------------------------------------
-- Scans of Files
------------------------------------------------------------

/-
  A result that counts given files, and that reports what is
  found in each of them: all of it, nothing else, and in
  strict order of path and offset.
-/
structure IsScanOf
    (t : FileTree)
    (r : Scan.Request)
    (base : Path)
    (files : List Path)
    (result : ScanResult) : Prop where
  count : result.filesScanned = files.length
  order : result.violations.Pairwise Violation.Before
  mem_iff :
    ∀ v, v ∈ result.violations ↔
      ∃ f ∈ files, t.Reports r base f v

section Scans

variable {t : FileTree}
variable {r : Scan.Request}
variable {sel : Selection}
variable {p root base f : Path}
variable {filter : FileFilter}
variable {files : List Path}
variable {order : Option Ordering}
variable {v : Violation}

/- Files that are scanned give what is in them, put together. -/
theorem scanFiles_of_mapM
    {pairs : List (Path × String)}
    {found : List (List Violation)}
    (h :
      pairs.mapM
          (fun f => t.scanFile r.rules r.inlineIgnore f.1 f.2) =
        .ok found) :
    t.scanFiles r pairs =
      .ok
        { violations := Violation.merged found.flatten
          filesScanned := pairs.length } := by
  unfold scanFiles
  dsimp only
  rw [h]

/- What a scan reports is found in one of its files. -/
theorem exists_scanFile_of_scanFiles
    {pairs : List (Path × String)}
    {result : ScanResult}
    (h : t.scanFiles r pairs = .ok result)
    (hMem : v ∈ result.violations) :
    ∃ f ∈ pairs, ∃ found,
      t.scanFile r.rules r.inlineIgnore f.1 f.2 = .ok found ∧
        v ∈ found := by
  unfold scanFiles at h
  dsimp only at h
  split at h
  · cases h
  · rename_i lists hLists
    cases h
    rcases List.mem_flatten.mp
        (Violation.mem_merged_iff.mp hMem).mem with
      ⟨found, hIn, hMem⟩
    rcases (mem_iff_of_mapM hLists).mp hIn with
      ⟨f, hFile, hScan⟩
    exact ⟨f, hFile, found, hScan, hMem⟩

/- Each file is paired with the path that reports it. -/
theorem exists_reported
    (h :
      ∀ f ∈ files, ∃ relative,
        t.reportedPath base f = .ok relative) :
    ∃ pairs,
      t.reported base files = .ok pairs ∧
        pairs.length = files.length ∧
          ∀ f relative, (f, relative) ∈ pairs ↔
            f ∈ files ∧
              t.reportedPath base f = .ok relative := by
  have hReported :
      ∀ f ∈ files, ∃ pair,
        ((t.reportedPath base f).map fun relative =>
          (f, relative)) = .ok pair :=
    fun f hMem => exists_map_iff.mpr (h f hMem)
  rcases exists_mapM_eq_ok hReported with
    ⟨pairs, hPairs, hLength, hPair⟩
  refine ⟨pairs, hPairs, hLength, ?_⟩
  intro f relative
  rw [hPair]
  constructor
  · rintro ⟨f', hMem, hValue⟩
    cases hPath : t.reportedPath base f' with
    | error cause =>
        rw [hPath] at hValue
        cases hValue
    | ok relative' =>
        rw [hPath] at hValue
        cases hValue
        exact ⟨hMem, hPath⟩
  · rintro ⟨hMem, hPath⟩
    exact ⟨f, hMem, by rw [hPath]; rfl⟩

/- Files that can be read are scanned, by whatever paths. -/
theorem scanFiles_of_file
    {pairs : List (Path × String)}
    (r : Scan.Request)
    (h :
      ∀ pair ∈ pairs, ∃ data,
        t.status pair.1 = .ok (some (.file data))) :
    ∃ lists : List (List Violation),
      t.scanFiles r pairs =
          .ok
            { violations := Violation.merged lists.flatten
              filesScanned := pairs.length } ∧
        ∀ found, found ∈ lists ↔
          ∃ pair ∈ pairs,
            t.scanFile r.rules r.inlineIgnore pair.1 pair.2 =
              .ok found := by
  have hScanned :
      ∀ pair ∈ pairs, ∃ found,
        t.scanFile r.rules r.inlineIgnore pair.1 pair.2 =
          .ok found := by
    intro pair hMem
    rcases h pair hMem with ⟨data, hFile⟩
    exact ⟨_, scanFile_of_read _ _ (read_of_status hFile)⟩
  rcases exists_mapM_eq_ok hScanned with
    ⟨lists, hLists, _, hList⟩
  exact ⟨lists, scanFiles_of_mapM hLists, hList⟩

/- What the one rule says of a violation is always the same. -/
theorem AreFilesBelow.rule_of_reports
    (hFiles : t.AreFilesBelow root files)
    (hTree : t.WellFormed)
    (hFit : t.DirectoryLinksFit)
    (hRules : sel.build = .ok r.rules)
    (hMem : f ∈ files)
    (hReports : t.Reports r base f v) :
    v.ruleId = CommentSpacing.info.identifier ∧
      v.message = CommentSpacing.info.description := by
  rcases hFiles.file f hMem with ⟨data, hFile⟩
  rcases hFiles.exists_reportedPath hTree hFit hMem base with
    ⟨relative, hPath⟩
  rw [reports_iff hFile hPath] at hReports
  rcases Scan.exists_offset_of_mem_lintBytes hRules hReports with
    ⟨severity, offset, _, rfl⟩
  exact ⟨rfl, rfl⟩

/- Files below a path are scanned, and give what is in them. -/
theorem AreFilesBelow.exists_isScanOf
    (hFiles : t.AreFilesBelow root files)
    (hTree : t.WellFormed)
    (hFit : t.DirectoryLinksFit)
    (hRules : sel.build = .ok r.rules)
    (base : Path) :
    ∃ pairs result,
      t.reported base files = .ok pairs ∧
        t.scanFiles r pairs = .ok result ∧
          t.IsScanOf r base files result := by
  have hReported :
      ∀ f ∈ files, ∃ relative,
        t.reportedPath base f = .ok relative :=
    fun f hMem => hFiles.exists_reportedPath hTree hFit hMem base
  rcases exists_reported hReported with
    ⟨pairs, hPairs, hLength, hPair⟩
  have hFile :
      ∀ pair ∈ pairs, ∃ data,
        t.status pair.1 = .ok (some (.file data)) := by
    rintro ⟨f, relative⟩ hMem
    exact hFiles.file f ((hPair f relative).mp hMem).1
  rcases scanFiles_of_file r hFile with
    ⟨lists, hScan, hList⟩
  have hFound :
      ∀ v, v ∈ lists.flatten ↔
        ∃ f ∈ files, t.Reports r base f v := by
    intro v
    rw [List.mem_flatten]
    constructor
    · rintro ⟨found, hMem, hIn⟩
      rcases (hList found).mp hMem with
        ⟨⟨f, relative⟩, hFile, hScan⟩
      rcases (hPair f relative).mp hFile with ⟨hFile, hPath⟩
      exact ⟨f, hFile, relative, found, hPath, hScan, hIn⟩
    · rintro ⟨f, hFile, relative, found, hPath, hScan, hIn⟩
      have hOne := (hPair f relative).mpr ⟨hFile, hPath⟩
      exact ⟨found, (hList found).mpr ⟨_, hOne, hScan⟩, hIn⟩
  have hKeys : Violation.KeysTell lists.flatten := by
    intro v hMem w hMem' hKey
    rcases (hFound v).mp hMem with ⟨f, hFile, hReports⟩
    rcases (hFound w).mp hMem' with ⟨f', hFile', hReports'⟩
    exact
      hFiles.eq_of_key_eq hTree hFit hRules hFile hFile' hReports
        hReports' hKey
  have hRule :
      ∀ v ∈ lists.flatten,
        v.ruleId = CommentSpacing.info.identifier ∧
          v.message = CommentSpacing.info.description := by
    intro v hMem
    rcases (hFound v).mp hMem with ⟨f, hFile, hReports⟩
    exact
      hFiles.rule_of_reports hTree hFit hRules hFile hReports
  refine
    ⟨pairs, ⟨Violation.merged lists.flatten, pairs.length⟩,
      hPairs, ?_, ?_⟩
  · exact hScan
  · constructor
    case count => exact congrArg Nat.cast hLength
    case order => exact Violation.merged_pairwise_before hRule
    case mem_iff =>
      intro v
      exact
        (Violation.mem_merged_iff_mem hKeys).trans (hFound v)

/- The files of a scan are those that it collects. -/
theorem scanned_of_collect
    {pairs : List (Path × String)}
    (hResolve : t.resolve p = .ok root)
    (hBase : t.baseOf root = .ok base)
    (hFilter : r.filter = .ok filter)
    (hCollect : t.collect filter root = .ok files)
    (hJobs : r.jobs.compareInt? 1 = .ok order)
    (hReported : t.reported base files = .ok pairs) :
    t.scanned r p = .ok pairs := by
  unfold scanned
  rw [hResolve, hFilter, hJobs]
  simp only [Except.mapError, bind, Except.bind, hBase,
    hCollect]
  exact hReported

/- A scan goes through the files that it collects. -/
theorem scan_eq_scanFiles
    {pairs : List (Path × String)}
    (hResolve : t.resolve p = .ok root)
    (hBase : t.baseOf root = .ok base)
    (hFilter : r.filter = .ok filter)
    (hCollect : t.collect filter root = .ok files)
    (hJobs : r.jobs.compareInt? 1 = .ok order)
    (hReported : t.reported base files = .ok pairs) :
    t.scan r p = t.scanFiles r pairs := by
  rw [scan,
    scanned_of_collect hResolve hBase hFilter hCollect hJobs
      hReported]
  rfl

/- Nothing is reported of no files. -/
theorem scanFiles_nil
    (t : FileTree)
    (r : Scan.Request) :
    t.scanFiles r [] = .ok ⟨[], 0⟩ := by
  have hMerged : Violation.merged [] = [] := by
    simp [Violation.merged]
  change Except.ok (ScanResult.mk (Violation.merged []) 0) = _
  rw [hMerged]

/- A directory reports from itself. -/
theorem baseOf_of_directory
    {place : Place}
    {entries : List (String × Node)}
    (hTree : t.WellFormed)
    (hFind : t.find root = .ok (place, .directory entries)) :
    t.baseOf root = .ok root := by
  unfold baseOf isFile
  rw [status_of_find hTree hFind]
  rfl

/- A file reports from the directory above it. -/
theorem baseOf_of_file
    {data : Bytes}
    (hFile : t.status root = .ok (some (.file data))) :
    t.baseOf root = .ok root.parent := by
  unfold baseOf isFile
  rw [hFile]
  rfl

/- What can be collected has a directory to report from. -/
theorem exists_baseOf_of_collect
    (hCollect : t.collect filter root = .ok files) :
    ∃ base, t.baseOf root = .ok base := by
  unfold collect at hCollect
  unfold baseOf isFile
  cases hStatus : t.status root with
  | error cause =>
      rw [hStatus] at hCollect
      cases hCollect
  | ok found => exact ⟨_, rfl⟩

/- Files that are reported by some path are scanned. -/
theorem exists_scan_of_reportedPath
    (hFile :
      ∀ f ∈ files, ∃ data, t.status f = .ok (some (.file data)))
    (hReported :
      ∀ f ∈ files, ∃ relative,
        t.reportedPath base f = .ok relative)
    (hResolve : t.resolve p = .ok root)
    (hBase : t.baseOf root = .ok base)
    (hFilter : r.filter = .ok filter)
    (hJobs : r.jobs.compareInt? 1 = .ok order)
    (hCollect : t.collect filter root = .ok files) :
    ∃ result, t.scan r p = .ok result := by
  rcases exists_reported hReported with
    ⟨pairs, hPairs, _, hPair⟩
  have hFiles :
      ∀ pair ∈ pairs, ∃ data,
        t.status pair.1 = .ok (some (.file data)) := by
    rintro ⟨f, relative⟩ hMem
    exact hFile f ((hPair f relative).mp hMem).1
  rcases scanFiles_of_file r hFiles with ⟨lists, hScan, _⟩
  rw [scan_eq_scanFiles hResolve hBase hFilter hCollect hJobs
    hPairs]
  exact ⟨_, hScan⟩

/- What a scan finds in the files that it collects. -/
theorem exists_isScanOf_of_collect
    (hTree : t.WellFormed)
    (hFit : t.DirectoryLinksFit)
    (hRules : sel.build = .ok r.rules)
    (hResolve : t.resolve p = .ok root)
    (hFilter : r.filter = .ok filter)
    (hJobs : r.jobs.compareInt? 1 = .ok order)
    (hCollect : t.collect filter root = .ok files)
    (hBase : t.baseOf root = .ok base) :
    ∃ result,
      t.scan r p = .ok result ∧
        t.IsScanOf r base files result := by
  have hFiles := areFilesBelow_of_collect hTree hResolve hCollect
  rcases hFiles.exists_isScanOf hTree hFit hRules base with
    ⟨pairs, result, hPairs, hScan, hResult⟩
  refine ⟨result, ?_, hResult⟩
  rw [scan_eq_scanFiles hResolve hBase hFilter hCollect hJobs
    hPairs]
  exact hScan

/-
  A scan reports of every file that it collects what is found
  there by the file's path, all of it and nothing else, in
  strict order of path and offset, and counts the files.
-/
theorem scan_reports_collected
    (hTree : t.WellFormed)
    (hFit : t.DirectoryLinksFit)
    (hRules : sel.build = .ok r.rules)
    (hResolve : t.resolve p = .ok root)
    (hFilter : r.filter = .ok filter)
    (hJobs : r.jobs.compareInt? 1 = .ok order)
    (hCollect : t.collect filter root = .ok files) :
    ∃ base result,
      t.baseOf root = .ok base ∧ t.scan r p = .ok result ∧
        t.IsScanOf r base files result := by
  rcases exists_baseOf_of_collect hCollect with ⟨base, hBase⟩
  rcases
      exists_isScanOf_of_collect hTree hFit hRules hResolve
        hFilter hJobs hCollect hBase with
    ⟨result, hScan, hResult⟩
  exact ⟨base, result, hBase, hScan, hResult⟩

/- So it does at any depth if links lead to files only. -/
theorem scan_reports_of_linksFilesOnly
    (hTree : t.WellFormed)
    (hLinks : t.LinksFilesOnly)
    (hRules : sel.build = .ok r.rules)
    (hResolve : t.resolve p = .ok root)
    (hFilter : r.filter = .ok filter)
    (hJobs : r.jobs.compareInt? 1 = .ok order)
    (hCollect : t.collect filter root = .ok files) :
    ∃ base result,
      t.baseOf root = .ok base ∧ t.scan r p = .ok result ∧
        t.IsScanOf r base files result := by
  have hFit := directoryLinksFit_of_fileLinks hLinks
  rcases exists_baseOf_of_collect hCollect with ⟨base, hBase⟩
  rcases
      exists_isScanOf_of_collect hTree hFit hRules hResolve
        hFilter hJobs hCollect hBase with
    ⟨result, hScan, hResult⟩
  exact ⟨base, result, hBase, hScan, hResult⟩

/-
  Violations that a scan reports by one path and at one offset
  are the same.
-/
theorem IsScanOf.eq_of_mem
    {result : ScanResult}
    {w : Violation}
    (h : t.IsScanOf r base files result)
    (hMem : v ∈ result.violations)
    (hMem' : w ∈ result.violations)
    (hPath : v.location.path = w.location.path)
    (hOffset : v.location.offset = w.location.offset) :
    v = w := by
  rcases List.getElem_of_mem hMem with ⟨i, hi, rfl⟩
  rcases List.getElem_of_mem hMem' with ⟨j, hj, rfl⟩
  have hOrder := List.pairwise_iff_getElem.mp h.order
  rcases Nat.lt_trichotomy i j with hLt | rfl | hLt
  · exact
      absurd (hOrder i j hi hj hLt)
        (Violation.not_before hPath hOffset)
  · rfl
  · exact
      absurd (hOrder j i hj hi hLt)
        (Violation.not_before hPath.symm hOffset.symm)

end Scans

/- A request for a project without its subdirectory. -/
def linkedRequest : Scan.Request :=
  { rules := Catalog.rules
    exclude := [.text "lib"]
    includeExtensions := [.text "C"]
    maxFileSizeKb := .integer 1024
    inlineIgnore := true
    jobs := .integer 4 }

/- A file and a link to it are collected. -/
theorem collect_linkedTree :
    linkedTree.collect
        (.ofExtensions ["lib"] ["C"] (.integer 1024))
        ⟨.root, ["proj"]⟩ =
      .ok [⟨.root, ["proj", "a.c"]⟩, ⟨.root, ["proj", "b.c"]⟩] := by
  rw [collect_eq_taken wellFormed_linkedTree rfl, candidatesBelow,
    inOrder_eq_self (by decide),
    inOrder_eq_self (by decide)]
  rfl

/- The file is reported once, and by one path. -/
theorem scan_reports_linkedTree :
    linkedTree.WellFormed ∧ linkedTree.DirectoryLinksFit ∧
      ∃ base result,
        linkedTree.baseOf ⟨.root, ["proj"]⟩ = .ok base ∧
          linkedTree.scan linkedRequest ⟨.here, []⟩ =
            .ok result ∧
            linkedTree.IsScanOf linkedRequest base
              [⟨.root, ["proj", "a.c"]⟩,
                ⟨.root, ["proj", "b.c"]⟩]
              result :=
  have hFit : linkedTree.DirectoryLinksFit :=
    (linksFit_of_places (by decide)).directoryLinksFit
  ⟨wellFormed_linkedTree, hFit,
    @scan_reports_collected linkedTree linkedRequest {} ⟨.here, []⟩
      _ _ _ _ wellFormed_linkedTree hFit rfl rfl rfl rfl
      collect_linkedTree⟩

end FileTree

------------------------------------------------------------
-- A Link Too Deep to Be Read
------------------------------------------------------------

/- Directories of one name hold nothing if the last is too deep. -/
theorem candidatesBelow_nested
    {f : FileFilter}
    {p : Path}
    {name : String}
    {n : Node}
    {depth : Nat}
    (hDirectory : n.isDirectory = true)
    (hLong :
      (p.below (List.replicate (depth + 1) name)).isLong = true) :
    candidatesBelow f p (nested name n (depth + 1)) = [] := by
  induction depth generalizing p with
  | zero =>
      have hJoin : (p.join name).isLong = true := hLong
      rw [nested, nested, candidatesBelow_singleton]
      simp [mayBeFile, isEntered, hDirectory, hJoin]
  | succ depth ih =>
      have hNested :
          (nested name n (depth + 1)).isDirectory = true :=
        rfl
      rw [List.replicate_succ, Path.below_cons] at hLong
      rw [nested, candidatesBelow_singleton, ih hLong]
      simp [mayBeFile, hNested]

namespace FileTree

/- The filter of a scan for one extension. -/
def deepFilter : FileFilter :=
  .ofExtensions [] [".c"] (.integer 1024)

/- The links are candidates, and nothing else is. -/
theorem candidatesBelow_deepTree :
    candidatesBelow deepFilter (pathOf []) deepTree.root =
      [pathOf ["s"], pathOf ["x.c"], pathOf ["z.c"]] := by
  have hLong :
      (((pathOf []).join deepName).below
          (List.replicate (14 + 1) deepName)).isLong =
        true := by
    have hDeep := isLong_deepPlace []
    rw [List.append_nil] at hDeep
    unfold deepPlace at hDeep
    exact hDeep
  have hNone :
      candidatesBelow deepFilter ((pathOf []).join deepName)
          (nested deepName deepProject (14 + 1)) =
        [] :=
    candidatesBelow_nested rfl hLong
  have hLinks :
      (deepLinks ++
            [(deepName, nested deepName deepProject 15)]).filter
          (mayBeFile deepFilter (pathOf [])) =
        deepLinks :=
    rfl
  unfold deepTree
  rw [candidatesBelow_of_forall_eq_nil, hLinks,
    inOrder_eq_self (by decide)]
  · rfl
  · intro e hMem hEntered
    rcases List.mem_append.mp hMem with hLink | hLast
    · rcases isLink_of_mem_deepLinks hLink with
        ⟨_, target, hNode⟩
      rw [hNode] at hEntered
      cases hEntered
    · rw [List.mem_singleton.mp hLast]
      exact hNone

/- A link to a directory is not taken. -/
theorem takes_deepTree_s :
    deepTree.takes deepFilter (pathOf ["s"]) = .ok false := by
  rcases find_deepTree_s with ⟨entries, hFind⟩
  exact
    takes_of_directory
      (status_of_find wellFormed_deepTree hFind)

/- The links to files are. -/
theorem takes_deepTree_x :
    deepTree.takes deepFilter (pathOf ["x.c"]) = .ok true :=
  takes_of_file
    (status_of_find wellFormed_deepTree find_deepTree_x) rfl
    (by decide)

theorem takes_deepTree_z :
    deepTree.takes deepFilter (pathOf ["z.c"]) = .ok true :=
  takes_of_file
    (status_of_find wellFormed_deepTree find_deepTree_z) rfl
    (by decide)

/- So they are collected. -/
theorem collect_deepTree :
    deepTree.collect deepFilter (pathOf []) =
      .ok [pathOf ["x.c"], pathOf ["z.c"]] := by
  have hNone : deepTree.taken deepFilter [] = .ok [] :=
    rfl
  have hTaken :=
    taken_cons takes_deepTree_s
      (taken_cons takes_deepTree_x
        (taken_cons takes_deepTree_z hNone))
  rw [← candidatesBelow_deepTree] at hTaken
  exact
    (collect_eq_taken wellFormed_deepTree rfl deepFilter).trans
      hTaken

/- Both are reported by the path of the file in the project. -/
theorem reportedPath_of_resolve_deepTree
    {p : Path}
    (h :
      deepTree.resolve p =
        .ok (pathOf (deepPlace 16 ++ ["y.c"]))) :
    deepTree.reportedPath (pathOf []) p =
      .ok (relativeText (deepPlace 16 ++ ["y.c"])) := by
  have hNames :
      (pathOf []).namesTo? (pathOf (deepPlace 16 ++ ["y.c"])) =
        some (deepPlace 16 ++ ["y.c"]) :=
    Path.namesTo?_below (pathOf []) _
  unfold reportedPath
  rw [h]
  dsimp only
  rw [hNames]
  rfl

/- Either file has a comment behind its first byte. -/
theorem tokenize_deepComment
    {data : Bytes}
    (h : data = lowerComment ∨ data = upperComment)
    (d : Dialect) :
    Lexer.tokenize d data = [⟨.comment, 1, 3⟩] := by
  rcases d with ⟨nested, apostrophe, backtick⟩
  rcases h with rfl | rfl
  · cases nested <;> cases apostrophe <;> cases backtick <;> rfl
  · cases nested <;> cases apostrophe <;> cases backtick <;> rfl

/- It lacks a space, by whatever path the file is reported. -/
theorem lintBytes_deepComment
    {data : Bytes}
    (h : data = lowerComment ∨ data = upperComment)
    (path : String) :
    Scan.lintBytes Catalog.rules false data path =
      [(CommentSpacing.rule .warning).violationAt
        (SourceFile.read data path) 3] := by
  have hRead :
      SourceFile.read data path =
        ⟨path, data, Dialect.ofPath path, [⟨.comment, 1, 3⟩]⟩ := by
    unfold SourceFile.read SourceFile.ofBytes
    simp [tokenize_deepComment h]
  have hFound :
      Catalog.rules.flatMap
          (fun q => q.violations (SourceFile.read data path)) =
        [(CommentSpacing.rule .warning).violationAt
          (SourceFile.read data path) 3] := by
    rw [hRead]
    rcases h with rfl | rfl
    · rfl
    · rfl
  change lint _ _ = _
  rw [lint, hFound]
  exact List.mergeSort_singleton _

/- A request for files of one extension. -/
def deepRequest : Scan.Request :=
  { linkedRequest with
    exclude := []
    includeExtensions := [.text ".c"]
    inlineIgnore := false }

/- What is found in one of the files is reported. -/
theorem reports_deepTree
    {f : Path}
    {place : Place}
    {data : Bytes}
    (hFind : deepTree.find f = .ok (place, .file data))
    (hResolve :
      deepTree.resolve f =
        .ok (pathOf (deepPlace 16 ++ ["y.c"])))
    (hData : data = lowerComment ∨ data = upperComment) :
    deepTree.Reports deepRequest (pathOf []) f
      ((CommentSpacing.rule .warning).violationAt
        (SourceFile.read data
          (relativeText (deepPlace 16 ++ ["y.c"])))
        3) := by
  have hFile := status_of_find wellFormed_deepTree hFind
  have hPath := reportedPath_of_resolve_deepTree hResolve
  rw [reports_iff hFile hPath]
  have hFound :=
    lintBytes_deepComment hData
      (relativeText (deepPlace 16 ++ ["y.c"]))
  exact hFound ▸ List.mem_singleton_self _

/- The files that are collected can be read. -/
theorem areFilesBelow_deepTree :
    deepTree.AreFilesBelow (pathOf [])
      [pathOf ["x.c"], pathOf ["z.c"]] := by
  have hResolve :
      deepTree.resolve ⟨.here, []⟩ = .ok (pathOf []) :=
    rfl
  exact
    areFilesBelow_of_collect wellFormed_deepTree hResolve
      collect_deepTree

/- They are scanned. -/
theorem exists_scan_deepTree :
    ∃ result,
      deepTree.scan deepRequest ⟨.here, []⟩ = .ok result := by
  have hReported :
      ∀ f ∈ [pathOf ["x.c"], pathOf ["z.c"]],
        ∃ relative,
          deepTree.reportedPath (pathOf []) f = .ok relative := by
    intro f hMem
    rcases List.mem_pair.mp hMem with rfl | rfl
    · exact ⟨_, reportedPath_of_resolve_deepTree resolve_deepTree_x⟩
    · exact ⟨_, reportedPath_of_resolve_deepTree resolve_deepTree_z⟩
  exact
    exists_scan_of_reportedPath areFilesBelow_deepTree.file
      hReported rfl rfl rfl rfl collect_deepTree

/- The two comments lie in different lines. -/
theorem violationAt_deepComment_ne
    (path : String) :
    (CommentSpacing.rule .warning).violationAt
        (SourceFile.read lowerComment path) 3 ≠
      (CommentSpacing.rule .warning).violationAt
        (SourceFile.read upperComment path) 3 := by
  intro hSame
  have hLine (f : SourceFile) :
      (f.location 3).line =
        ((f.data.take 3).count Ascii.lineFeed : Nat) + 1 :=
    congrArg Location.line (f.location_natCast 3)
  have hLower :
      ((SourceFile.read lowerComment path).location 3).line = 2 :=
    hLine _
  have hUpper :
      ((SourceFile.read upperComment path).location 3).line = 1 :=
    hLine _
  have hLines :=
    hLower.symm.trans
      ((congrArg (fun v => v.location.line) hSame).trans hUpper)
  exact absurd hLines (by decide)

/-
  Where a link to a directory lies too deep to be read, two
  files can be reported by one path, and of two comments at
  one offset a scan then tells of one.
-/
theorem scan_loses_deepComment :
    deepTree.WellFormed ∧
      Selection.build {} = .ok deepRequest.rules ∧
        deepTree.resolve ⟨.here, []⟩ = .ok (pathOf []) ∧
          deepRequest.filter = .ok deepFilter ∧
            deepRequest.jobs.compareInt? 1 = .ok (some .gt) ∧
              deepTree.collect deepFilter (pathOf []) =
                .ok [pathOf ["x.c"], pathOf ["z.c"]] ∧
                (∀ f ∈ [pathOf ["x.c"], pathOf ["z.c"]],
                  ∃ data, deepTree.read f = .ok data) ∧
                  ∃ base result,
                    deepTree.baseOf (pathOf []) = .ok base ∧
                      deepTree.scan deepRequest ⟨.here, []⟩ =
                        .ok result ∧
                        ¬ deepTree.IsScanOf deepRequest base
                            [pathOf ["x.c"], pathOf ["z.c"]]
                            result := by
  rcases exists_scan_deepTree with ⟨result, hScan⟩
  refine
    ⟨wellFormed_deepTree, rfl, rfl, rfl, rfl, collect_deepTree,
      ?_, pathOf [], result, rfl, hScan, ?_⟩
  · intro f hMem
    rcases areFilesBelow_deepTree.file f hMem with ⟨data, hFile⟩
    exact ⟨data, read_of_status hFile⟩
  · intro hResult
    have hLower :=
      (hResult.mem_iff _).mpr
        ⟨_, by simp,
          reports_deepTree find_deepTree_x resolve_deepTree_x
            (Or.inl rfl)⟩
    have hUpper :=
      (hResult.mem_iff _).mpr
        ⟨pathOf ["z.c"], by simp,
          reports_deepTree find_deepTree_z resolve_deepTree_z
            (Or.inr rfl)⟩
    exact
      violationAt_deepComment_ne _
        (hResult.eq_of_mem hLower hUpper rfl rfl)

end FileTree

end CommentLint
