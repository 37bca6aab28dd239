import CommentLint.CommandLine.Run
import CommentLint.Proofs.Config.Acceptance
import CommentLint.Proofs.Config.Merging
import CommentLint.Proofs.FileTree.Nulls

/-
  How runs of a scan end.

  Where settings and options are of the kinds that are asked
  for, and the files can be looked up, a scan ends with one of
  two exit codes, unless the system refuses to write its
  report.  A configuration that cannot be used is refused
  before anything is scanned or written.  A setting of another
  kind gets past the refusal: the run fails without an exit
  code.

  Key definitions include:
    * `FileTree.HoldsDocument`
    * `Config.FitsScan`
    * `Config.KindsFit`
    * `FileTree.CanScan`
    * `FileTree.Exits`
    * `FileTree.Refuses`

  Key results include:
    * `FileTree.loadDefaultConfig_of_holdsDocument`
    * `FileTree.deliver_cases`
    * `FileTree.CanScan.exists_scanFiles`
    * `FileTree.scanUnder_exits`
    * `FileTree.run_scan_exits`
    * `FileTree.run_scan_fails`
-/

namespace CommentLint

open CommandLine

namespace FileTree

variable {t : FileTree}
variable {p : Path}

------------------------------------------------------------
-- Documents
------------------------------------------------------------

/-
  The document of the default name holds sections; one that is
  missing holds none.
-/
def HoldsDocument
    (t : FileTree)
    (sections : List (String × Setting)) : Prop :=
  (t.has (Path.ofString defaultConfigName) = .ok false ∧
      sections = []) ∨
    ∃ data text,
      t.read (Path.ofString defaultConfigName) = .ok data ∧
        Utf8.decode? data = some text ∧
          Toml.parse text = .ok (.table sections)

/- What can be read is there. -/
theorem has_of_read
    {data : Bytes}
    (h : t.read p = .ok data) :
    t.has p = .ok true := by
  unfold read at h
  split at h
  case isTrue => cases h
  case isFalse hNull =>
    split at h
    case h_1 place found hFind =>
      unfold has status
      rw [if_neg hNull, hFind]
      rfl
    case h_2 => cases h
    case h_3 => cases h

/- What a document holds is read as a configuration. -/
theorem ofDocument_of_parse
    {data : Bytes}
    {text : List Char}
    {s : Setting}
    (hText : Utf8.decode? data = some text)
    (hParse : Toml.parse text = .ok s) :
    Config.ofDocument data =
      (Config.ofSetting s).mapError LoadError.setting := by
  unfold Config.ofDocument
  rw [hText]
  dsimp only
  rw [hParse]

/- A document holds a table. -/
theorem exists_sections_of_parse
    {text : List Char}
    {s : Setting}
    (h : Toml.parse text = .ok s) :
    ∃ sections, s = .table sections := by
  unfold Toml.parse at h
  rcases map_eq_ok_iff.mp h with ⟨d, _, rfl⟩
  exact ⟨d.fields, rfl⟩

/- A configuration is loaded from the sections of the document. -/
theorem loadDefaultConfig_of_holdsDocument
    {sections : List (String × Setting)}
    (h : t.HoldsDocument sections) :
    t.loadDefaultConfig =
      (Config.ofSetting (.table sections)).mapError
        LoadError.setting := by
  unfold loadDefaultConfig
  dsimp only
  rcases h with
    ⟨hMissing, rfl⟩ | ⟨data, text, hRead, hText, hParse⟩
  · rw [hMissing]
    rfl
  · rw [has_of_read hRead]
    unfold loadConfigAt
    rw [has_of_read hRead, hRead]
    exact ofDocument_of_parse hText hParse

------------------------------------------------------------
-- Delivery
------------------------------------------------------------

/- Asking for a directory fails where the system refuses it. -/
theorem system_of_isDirectory
    {e : PathError}
    (h : t.isDirectory p = .error e) :
    ∃ cause q, e = .system cause q := by
  unfold isDirectory status at h
  split at h
  · cases h
  · split at h
    · cases h
    · cases h
      exact ⟨_, p, rfl⟩
    · cases h

/- A failure is accepted, or it is one of the system. -/
theorem system_of_acceptPresent
    {cause : SystemError}
    {e : PathError}
    (h : acceptPresent t p cause = .error e) :
    ∃ cause q, e = .system cause q := by
  unfold acceptPresent at h
  split at h
  · cases h
    exact ⟨cause, p, rfl⟩
  · split at h
    · cases h
    · cases h
      exact ⟨cause, p, rfl⟩
    · cases h
      exact system_of_isDirectory ‹_›

/- Directories are made unless the system refuses, if they are few. -/
theorem system_of_makeDirectoriesFor
    {anchor : Anchor}
    {names : List String}
    {limit : Nat}
    {e : PathError}
    (hLimit : names.length < limit)
    (h : makeDirectoriesFor t anchor limit names = .error e) :
    ∃ cause q, e = .system cause q := by
  induction names generalizing t limit with
  | nil =>
      cases limit with
      | zero => cases hLimit
      | succ limit =>
          unfold makeDirectoriesFor at h
          split at h
          · cases h
          · exact system_of_acceptPresent h
  | cons name above ih =>
      cases limit with
      | zero => cases hLimit
      | succ limit =>
          unfold makeDirectoriesFor at h
          dsimp only at h
          split at h
          · cases h
          · split at h
            · cases h
              exact ih (Nat.lt_of_succ_lt_succ hLimit) ‹_›
            · split at h
              · cases h
              · exact system_of_acceptPresent h
          · exact system_of_acceptPresent h

/- The same for a path, whose names are looked at first. -/
theorem system_of_makeDirectories
    {e : PathError}
    (hNull : p.hasNull = false)
    (hLimit : p.names.length < makeLimit)
    (h : t.makeDirectories p = .error e) :
    ∃ cause q, e = .system cause q := by
  unfold makeDirectories at h
  rw [if_neg (by simp [hNull])] at h
  exact system_of_makeDirectoriesFor (by simpa using hLimit) h

/- A file is written unless the system refuses. -/
theorem system_of_write
    {data : Bytes}
    {e : PathError}
    (hNull : p.hasNull = false)
    (h : t.write p data = .error e) :
    ∃ cause q, e = .system cause q := by
  unfold write at h
  rw [if_neg (by simp [hNull])] at h
  split at h
  · cases h
  · cases h
  · cases h
    exact ⟨_, p, rfl⟩
  · cases h
    exact ⟨_, p, rfl⟩

/- A report is written unless the system refuses. -/
theorem system_of_writeReport
    {report : String}
    {e : PathError}
    (hNull : p.hasNull = false)
    (hLimit : p.names.length ≤ makeLimit)
    (h : t.writeReport p report = .error e) :
    ∃ cause q, e = .system cause q := by
  have hAbove : p.parent.names.length < makeLimit := by
    change p.names.dropLast.length < makeLimit
    rw [List.length_dropLast]
    unfold makeLimit at hLimit ⊢
    omega
  unfold writeReport at h
  split at h
  case h_1 =>
    cases h
    exact
      system_of_makeDirectories (Path.hasNull_parent hNull) hAbove
        ‹_›
  case h_2 => exact system_of_write hNull h

end FileTree

/-
  A place for a report: the screen, or a path of not too many
  names and without a null.
-/
def Setting.IsReportPlace (s : Setting) : Prop :=
  s = .null ∨
    ∃ path,
      s = .text path ∧ (Path.ofString path).hasNull = false ∧
        (Path.ofString path).names.length ≤ FileTree.makeLimit

/- A report is delivered unless the system refuses to write it. -/
theorem FileTree.deliver_cases
    {out : Setting}
    (h : out.IsReportPlace)
    (t : FileTree)
    (report : String) :
    (∃ d, t.deliver out report = .ok d) ∨
      ∃ cause p,
        t.deliver out report =
          .error (.access (.system cause p)) := by
  rcases h with rfl | ⟨path, rfl, hNull, hLimit⟩
  · exact Or.inl ⟨_, rfl⟩
  · unfold deliver
    dsimp only
    cases hWrite : t.writeReport (Path.ofString path) report with
    | ok t' => exact Or.inl ⟨_, rfl⟩
    | error e =>
        rcases system_of_writeReport hNull hLimit hWrite with
          ⟨cause, p, rfl⟩
        exact Or.inr ⟨cause, p, rfl⟩

------------------------------------------------------------
-- Scanning
------------------------------------------------------------

/- Names that a configuration excludes. -/
def Config.excludedNames (c : Config) : List String :=
  c.scan.exclude.filterMap FileFilter.excludedName?

/- The kinds of settings that a scan asks for. -/
structure Config.FitsScan (c : Config) : Prop where
  comparable : c.IsComparable
  extensions :
    ∀ s ∈ c.scan.includeExtensions, ∃ text, s = .text text
  out : c.report.out.IsReportPlace

namespace FileTree

variable {t : FileTree}
variable {root : Path}
variable {c : Config}

/-
  What is below a path can be looked up: the path itself, and
  every entry that is not excluded.
-/
structure Answers
    (t : FileTree)
    (excluded : List String)
    (root : Path) : Prop where
  status : ∃ found, t.status root = .ok found
  entries :
    ∀ place n, t.find root = .ok (place, n) →
      t.EntriesAnswer excluded root n

/- There are candidates in a directory only. -/
theorem candidates_of_status
    {found : Option Node}
    {f : FileFilter}
    (hNull : root.hasNull = false)
    (hStatus : t.status root = .ok found)
    (hFound : ∀ entries, found ≠ some (.directory entries)) :
    t.candidates f root = [] := by
  unfold candidates
  cases hFind : t.find root with
  | error cause => rfl
  | ok there =>
      rcases there with ⟨place, n⟩
      unfold status at hStatus
      rw [if_neg (by simp [hNull]), hFind] at hStatus
      cases hStatus
      cases n with
      | file data => rfl
      | link target => rfl
      | directory entries => exact absurd rfl (hFound entries)

/- Where everything answers, files can be collected. -/
theorem Answers.exists_collect
    {excluded extensions : List String}
    {maxSizeKb : Int}
    (hTree : t.WellFormed)
    (hNull : root.hasNull = false)
    (h : t.Answers excluded root) :
    ∃ files,
      t.collect
          (.ofExtensions excluded extensions
            (.integer maxSizeKb)) root =
        .ok files := by
  rcases h.status with ⟨found, hStatus⟩
  by_cases hDirectory :
      ∃ entries, found = some (.directory entries)
  · rcases hDirectory with ⟨entries, rfl⟩
    rcases exists_find_of_status hStatus with
      ⟨_, place, hFind⟩
    exact
      exists_collect_of_entriesAnswer hTree hFind
        (h.entries place _ hFind)
  · unfold collect
    rw [hStatus]
    split
    · rename_i cause hError
      cases hError
    · rw [FileFilter.allowsSize_ofExtensions]
      exact ⟨_, rfl⟩
    · rw [if_neg (by simp [hNull]),
        candidates_of_status hNull hStatus
          fun entries hFound => hDirectory ⟨entries, hFound⟩]
      exact ⟨[], rfl⟩

/-
  A scan of a path under a configuration gets through: the
  path can be resolved, what is below it answers, and neither
  the sizes of files nor the totals of what is found have too
  many digits.
-/
structure CanScan
    (t : FileTree)
    (c : Config)
    (p : Path) : Prop where
  answers :
    ∃ root,
      t.resolve p = .ok root ∧ t.Answers c.excludedNames root
  sizes : t.IsMeasurable
  summable :
    ∀ rules result,
      c.selection.build = .ok rules →
        t.scan (c.request rules) p = .ok result →
          result.IsSummable

/- The filter of a configuration takes its extensions. -/
theorem exists_filter
    {n : Int}
    (hFits : c.FitsScan)
    (hSize : c.scan.maxFileSizeKb = .integer n)
    (rules : List Rule) :
    ∃ extensions,
      (c.request rules).filter =
        .ok
          (.ofExtensions c.excludedNames extensions
            (.integer n)) := by
  have hExtensions :
      ∃ extensions,
        c.scan.includeExtensions.mapM FileFilter.extensionOf =
          .ok extensions := by
    rw [exists_mapM_iff]
    intro s hMem
    rcases hFits.extensions s hMem with ⟨text, rfl⟩
    exact ⟨text, rfl⟩
  rcases hExtensions with ⟨extensions, hExtensions⟩
  refine ⟨extensions, ?_⟩
  unfold Scan.Request.filter FileFilter.ofSettings
  change
    (c.scan.includeExtensions.mapM FileFilter.extensionOf).map
        (fun extensions =>
          FileFilter.ofExtensions c.excludedNames extensions
            c.scan.maxFileSizeKb) =
      _
  rw [hExtensions, hSize]
  rfl

/- The files of a scan are found, and something is found in them. -/
theorem CanScan.exists_scanFiles
    {p : Path}
    {rules : List Rule}
    {n : Int}
    (h : t.CanScan c p)
    (hTree : t.WellFormed)
    (hLinks : t.DirectoryLinksFit)
    (hFits : c.FitsScan)
    (hSize : c.scan.maxFileSizeKb = .integer n)
    (hRules : c.selection.build = .ok rules) :
    ∃ files result,
      t.scanned (c.request rules) p = .ok files ∧
        t.scanFiles (c.request rules) files = .ok result := by
  rcases h.answers with ⟨root, hResolve, hAnswers⟩
  rcases exists_filter hFits hSize rules with
    ⟨extensions, hFilter⟩
  have hCollected :
      ∃ files,
        t.collect
            (.ofExtensions c.excludedNames extensions
              (.integer n)) root =
          .ok files :=
    hAnswers.exists_collect hTree
      (hasNull_of_resolve hTree hResolve)
  rcases hCollected with ⟨files, hCollect⟩
  rcases exists_baseOf_of_collect hCollect with ⟨base, hBase⟩
  have hJobs :
      ∃ order, (c.request rules).jobs.compareInt? 1 = .ok order :=
    Setting.exists_compareInt?_iff.mpr hFits.comparable.jobs
  rcases hJobs with ⟨order, hJobs⟩
  have hFiles :=
    areFilesBelow_of_collect hTree hResolve hCollect
  rcases hFiles.exists_isScanOf (r := c.request rules) hTree
      hLinks hRules base with
    ⟨pairs, result, hReported, hScan, _⟩
  exact
    ⟨pairs, result,
      scanned_of_collect hResolve hBase hFilter hCollect hJobs
        hReported,
      hScan⟩

------------------------------------------------------------
-- Scans Under a Configuration
------------------------------------------------------------

/- How a run ends: with an exit code, or at a refused report. -/
def Exits (run : Except Fault Outcome) : Prop :=
  (∃ out,
      run = .ok out ∧
        (out.exitCode = 0 ∨ out.exitCode = refusal)) ∨
    ∃ cause p,
      run = .error (.delivery (.access (.system cause p)))

/- A scan under a configuration that can be used ends so. -/
theorem scanUnder_exits
    {path : String}
    {n : Int}
    (hTree : t.WellFormed)
    (hLinks : t.DirectoryLinksFit)
    (hFits : c.FitsScan)
    (hSize : c.scan.maxFileSizeKb = .integer n)
    (hAccepted : c.Accepted)
    (hScan : t.CanScan c (Path.ofString path))
    (verbose : Bool) :
    Exits (t.scanUnder verbose path c) := by
  rcases hAccepted.exists_build with ⟨rules, hRules⟩
  rcases hScan.exists_scanFiles hTree hLinks hFits hSize
      hRules with
    ⟨files, result, hFiles, hResult⟩
  have hRanked :
      result.IsRanked :=
    isRanked_of_scanFiles
      (fun _ => Selection.isRanked_of_build hRules) hResult
  have hSummable :
      result.IsSummable := by
    apply hScan.summable rules result hRules
    unfold scan
    rw [hFiles]
    exact hResult
  have hWritable :
      result.IsWritable :=
    hScan.sizes.isWritable_of_scanFiles hTree hRules hResult
      hSummable
  rcases Report.exists_renderAs hAccepted.format hWritable with
    ⟨report, hReport⟩
  rcases Report.exists_summary_iff.mpr hSummable with
    ⟨summary, hSummary⟩
  rcases hAccepted.exists_reasons hRanked
      hSummable.isCountable with
    ⟨reasons, hReasons⟩
  unfold scanUnder
  simp only [hRules, Except.mapError, hFiles, hResult,
    hReport, hSummary, bind, Except.bind]
  rcases deliver_cases hFits.out t report with
    ⟨delivery, hDeliver⟩ | ⟨cause, p, hDeliver⟩
  · rw [hDeliver]
    simp only [hReasons]
    refine Or.inl ⟨_, rfl, ?_⟩
    dsimp only
    split
    · exact Or.inl rfl
    · exact Or.inr rfl
  · rw [hDeliver]
    exact Or.inr ⟨cause, p, rfl⟩

end FileTree

------------------------------------------------------------
-- Runs of a Scan
------------------------------------------------------------

/-
  The sections of a document and the options of a scan are of
  the kinds that reading, merging, checking and scanning ask
  for.
-/
structure Config.KindsFit
    (sections : List (String × Setting))
    (o : ScanOptions) : Prop where
  readable : Config.IsReadable sections
  given : o.IsGiven
  extend :
    ∀ c, Config.ofSetting (.table sections) = .ok c →
      c.CanExtend o
  fits : ∀ c, Config.IsOf (.table sections) o c → c.FitsScan

namespace FileTree

variable {t : FileTree}
variable {verbose : Bool}
variable {o : ScanOptions}
variable {sections : List (String × Setting)}

/- A run refuses a configuration: it says why, and does nothing. -/
def Refuses
    (t : FileTree)
    (run : Except Fault Outcome) : Prop :=
  ∃ messages,
    messages ≠ [] ∧
      run =
        .ok ⟨refusal, "", taggedLines "config" messages, t⟩

/- To refuse is to end with an exit code. -/
theorem Refuses.exits
    {run : Except Fault Outcome}
    (h : t.Refuses run) :
    Exits run := by
  rcases h with ⟨messages, _, rfl⟩
  exact Or.inl ⟨_, rfl, Or.inr rfl⟩

/-
  A checked configuration is refused if it has problems, and
  goes on otherwise.
-/
theorem checked_cases
    {c : Config}
    {go : Config → Except Fault Outcome}
    (h : c.IsComparable) :
    ¬ c.Accepted ∧ t.Refuses (c.checked t go) ∨
      c.Accepted ∧ c.checked t go = go c := by
  rcases Config.exists_problems_iff.mpr h with ⟨ps, hProblems⟩
  rw [← Config.problems_eq_nil_iff]
  unfold Config.checked
  rw [hProblems]
  cases ps with
  | nil => exact Or.inr ⟨rfl, rfl⟩
  | cons p rest =>
      refine Or.inl ⟨by simp, ?_⟩
      exact ⟨_, List.cons_ne_nil _ _, rfl⟩

section Merged

variable {read c : Config}

/- Options that can be merged give the configuration to check. -/
theorem runScan_of_merge
    (hDefault : o.config? = none)
    (hDocument : t.HoldsDocument sections)
    (hRead : Config.ofSetting (.table sections) = .ok read)
    (hMerge : read.merge o = .ok c) :
    t.runScan verbose o =
      c.checked t (t.scanUnder verbose o.path) := by
  unfold runScan
  rw [hDefault]
  unfold loadConfig
  rw [loadDefaultConfig_of_holdsDocument hDocument, hRead]
  dsimp only [Except.mapError]
  rw [hMerge]

/- A malformed severity is refused. -/
theorem refuses_of_malformed
    {text : String}
    {soFar : Config}
    (hDefault : o.config? = none)
    (hDocument : t.HoldsDocument sections)
    (hRead : Config.ofSetting (.table sections) = .ok read)
    (hMerge :
      read.merge o = .error (.malformedSeverity text soFar)) :
    t.Refuses (t.runScan verbose o) := by
  unfold runScan
  rw [hDefault]
  unfold loadConfig
  rw [loadDefaultConfig_of_holdsDocument hDocument, hRead]
  dsimp only [Except.mapError]
  rw [hMerge]
  exact ⟨_, List.cons_ne_nil _ _, rfl⟩

end Merged

/-
  A command line that asks for a scan with the document of the
  default name, where settings and options are of the kinds
  that are asked for and the files can be looked up.  A
  configuration that cannot be used is refused, and the run
  ends with an exit code unless the system refuses to write
  the report.
-/
theorem run_scan_exits
    {words : List String}
    (hTree : t.WellFormed)
    (hLinks : t.DirectoryLinksFit)
    (hWords :
      Invocation.parse words = .ok ⟨verbose, .scan o⟩)
    (hDefault : o.config? = none)
    (hDocument : t.HoldsDocument sections)
    (hKinds : Config.KindsFit sections o)
    (hScan :
      ∀ c, Config.IsOf (.table sections) o c → c.Accepted →
        t.CanScan c (Path.ofString o.path)) :
    ((¬ ∃ c, Config.IsOf (.table sections) o c ∧ c.Accepted) →
        t.Refuses (t.run words)) ∧
      Exits (t.run words) := by
  have hRun : t.run words = t.runScan verbose o := by
    unfold run
    rw [hWords]
  rw [hRun]
  rcases Config.exists_ofSetting_iff.mpr
      ⟨sections, rfl, hKinds.readable⟩ with
    ⟨read, hRead⟩
  rcases Config.merge_cases hKinds.given
      (hKinds.extend read hRead) with
    ⟨c, hMerge⟩ | ⟨text, soFar, hMerge⟩
  · have hOf : Config.IsOf (.table sections) o c :=
      ⟨read, hRead, hMerge⟩
    have hFits := hKinds.fits c hOf
    rw [runScan_of_merge hDefault hDocument hRead hMerge]
    rcases checked_cases hFits.comparable with
      ⟨_, hRefuses⟩ | ⟨hAccepted, hChecked⟩
    · exact ⟨fun _ => hRefuses, hRefuses.exits⟩
    · rcases Config.exists_scanOf_of_ofSetting hRead with
        ⟨part, hPart⟩
      rcases Config.exists_maxFileSizeKb_of_merge hKinds.given
          (Config.exists_maxFileSizeKb_of_scanOf hPart)
          hMerge with
        ⟨n, hSize⟩
      rw [hChecked]
      refine ⟨fun hNone => absurd ⟨c, hOf, hAccepted⟩ hNone, ?_⟩
      exact
        scanUnder_exits hTree hLinks hFits hSize hAccepted
          (hScan c hOf hAccepted) verbose
  · have hRefuses : t.Refuses (t.runScan verbose o) :=
      refuses_of_malformed hDefault hDocument hRead hMerge
    exact ⟨fun _ => hRefuses, hRefuses.exits⟩

------------------------------------------------------------
-- Trees with a Document
------------------------------------------------------------

/- A tree with a document of the default name and nothing else. -/
def documentTree (text : List Char) : FileTree :=
  ⟨.directory [(defaultConfigName, .file (Utf8.encode text))],
    []⟩

/- A document that sets the number of jobs to a digit. -/
def jobsDocument (digit : Char) : List Char :=
  [
    '[', 's', 'c', 'a', 'n', ']', '\n', 'j', 'o', 'b', 's',
    '=', digit, '\n'
  ]

/- The tree of that document. -/
def jobsTree (digit : Char) : FileTree :=
  documentTree (jobsDocument digit)

/- The sections that the document holds. -/
def jobsSections (n : Int) : List (String × Setting) :=
  [("scan", .table [("jobs", .integer n)])]

/- The configuration that they give. -/
def jobsConfig (n : Int) : Config :=
  { scan := { jobs := .integer n } }

/- No other configuration is given by them. -/
theorem eq_jobsConfig
    {n : Int}
    {c : Config}
    (h : Config.IsOf (.table (jobsSections n)) {} c) :
    c = jobsConfig n := by
  rcases h with ⟨read, hRead, hMerge⟩
  cases hRead
  cases hMerge
  rfl

/- They are of the kinds that are asked for. -/
theorem kindsFit_jobsSections (n : Int) :
    Config.KindsFit (jobsSections n) {} where
  readable :=
    { scan :=
        ⟨[("jobs", .integer n)], rfl,
          { exclude := fun _ h => (nomatch h)
            includeExtensions := fun _ h => (nomatch h)
            maxFileSizeKb := fun _ h => (nomatch h)
            enabledRules := fun _ h => (nomatch h)
            disabledRules := fun _ h => (nomatch h)
            jobs := by simp [Setting.IsIntegral] }⟩
      rules := ⟨[], rfl, by simp⟩
      gate := ⟨[], rfl⟩
      report := ⟨[], rfl⟩ }
  given := by constructor <;> simp
  extend := by
    intro c hRead
    cases hRead
    exact ⟨by simp, by simp⟩
  fits := by
    intro c hOf
    rw [eq_jobsConfig hOf]
    refine
      { comparable := ⟨rfl, rfl, ?_⟩
        extensions := ?_
        out := Or.inl rfl }
    · simp [Config.limits, jobsConfig]
    · simp [jobsConfig, defaultExtensions]

/- The tree with the document is well-formed. -/
theorem wellFormed_jobsTree :
    (jobsTree '2').WellFormed :=
  ⟨Node.wellFormed_of_places _ (by decide), ⟨_, rfl⟩⟩

/- It can be scanned; the document itself is not taken. -/
theorem canScan_jobsTree :
    (jobsTree '2').CanScan (jobsConfig 2)
      (Path.ofString ".") where
  answers := by
    refine ⟨⟨.root, []⟩, rfl, ?_⟩
    refine ⟨⟨_, rfl⟩, ?_⟩
    intro place n hFind
    cases hFind
    exact entriesAnswer_of_places _ (by decide)
  sizes := isMeasurable_of_places (by decide +kernel)
  summable := by
    intro rules result _ hScan
    have hCollect :
        (jobsTree '2').collect
            (.ofExtensions (jobsConfig 2).excludedNames
              defaultExtensions (.integer 1024))
            ⟨.root, []⟩ =
          .ok [] := by
      rw [collect_eq_taken wellFormed_jobsTree rfl,
        candidatesBelow, inOrder_eq_self (by decide),
        inOrder_eq_self (by decide)]
      rfl
    have hNone :
        (jobsTree '2').scan
            ((jobsConfig 2).request rules)
            (Path.ofString ".") =
          .ok ⟨[], 0⟩ :=
      (scan_eq_scanFiles rfl rfl rfl hCollect rfl rfl).trans
        (scanFiles_nil _ _)
    rw [hNone] at hScan
    cases hScan
    exact ⟨Numeral.isWritable_zero, Numeral.isWritable_zero⟩

/- No jobs at all are not accepted. -/
theorem not_accepted_jobsConfig :
    ¬ (jobsConfig 0).Accepted := by
  intro h
  have hJobs :=
    Setting.isAtLeast_integer_iff.mp h.jobs
  exact absurd hJobs (by decide)

/-
  A scan of the tree ends with an exit code; where the
  document asks for no jobs, the configuration is refused.
-/
theorem run_scan_exits_jobs :
    Invocation.parse ["scan"] = .ok ⟨false, .scan {}⟩ ∧
      ((jobsTree '2').WellFormed ∧
        (jobsTree '2').HoldsDocument (jobsSections 2) ∧
        Config.KindsFit (jobsSections 2) {} ∧
        Exits ((jobsTree '2').run ["scan"])) ∧
      (jobsTree '0').WellFormed ∧
        (jobsTree '0').HoldsDocument (jobsSections 0) ∧
        Config.KindsFit (jobsSections 0) {} ∧
        (jobsTree '0').Refuses ((jobsTree '0').run ["scan"]) :=
  have hDocument :
      (jobsTree '2').HoldsDocument (jobsSections 2) :=
    Or.inr ⟨_, jobsDocument '2', rfl, by decide, rfl⟩
  have hExits :=
    run_scan_exits wellFormed_jobsTree
      (linksFit_of_places (by decide)).directoryLinksFit
      rfl rfl hDocument (kindsFit_jobsSections 2)
      fun _ hOf _ => eq_jobsConfig hOf ▸ canScan_jobsTree
  have hNone :
      (jobsTree '0').WellFormed :=
    ⟨Node.wellFormed_of_places _ (by decide), ⟨_, rfl⟩⟩
  have hNoneDocument :
      (jobsTree '0').HoldsDocument (jobsSections 0) :=
    Or.inr ⟨_, jobsDocument '0', rfl, by decide, rfl⟩
  have hNot (c : Config)
      (hOf : Config.IsOf (.table (jobsSections 0)) {} c) :
      ¬ c.Accepted :=
    eq_jobsConfig hOf ▸ not_accepted_jobsConfig
  have hRefuses :=
    run_scan_exits hNone
      (linksFit_of_places (by decide)).directoryLinksFit
      rfl rfl hNoneDocument (kindsFit_jobsSections 0)
      fun c hOf hAccepted => absurd hAccepted (hNot c hOf)
  ⟨rfl,
    ⟨wellFormed_jobsTree, hDocument, kindsFit_jobsSections 2,
      hExits.2⟩,
    hNone, hNoneDocument, kindsFit_jobsSections 0,
    hRefuses.1 fun ⟨c, hOf, hAccepted⟩ =>
      hNot c hOf hAccepted⟩

/- A document in which the number of jobs is a text. -/
def wordDocument : List Char :=
  [
    '[', 's', 'c', 'a', 'n', ']', '\n', 'j', 'o', 'b', 's',
    ' ', '=', ' ', '"', 't', 'w', 'o', '"', '\n'
  ]

/- The fault of a run that has no outcome. -/
def fault? : Except Fault Outcome → Option Fault
  | .ok _ => none
  | .error cause => some cause

/- A run has a fault when it has no outcome. -/
theorem fault?_eq_some_iff
    {run : Except Fault Outcome}
    {cause : Fault} :
    fault? run = some cause ↔ run = .error cause := by
  cases run <;> simp [fault?]

/- The document can be read, for it is a table. -/
theorem holdsDocument_wordTree :
    ∃ sections,
      (documentTree wordDocument).HoldsDocument sections := by
  have hOk : (Toml.parse wordDocument).isOk = true := by
    decide
  cases hParse : Toml.parse wordDocument with
  | error e =>
      rw [hParse] at hOk
      cases hOk
  | ok s =>
      rcases exists_sections_of_parse hParse with
        ⟨sections, rfl⟩
      exact
        ⟨sections,
          Or.inr
            ⟨_, wordDocument, rfl, by decide, hParse⟩⟩

/-
  A text that gives no integer is not refused as a part of the
  configuration: the run fails without an exit code.
-/
theorem run_scan_fails :
    (∃ sections,
      (documentTree wordDocument).HoldsDocument sections) ∧
      Invocation.parse ["scan"] = .ok ⟨false, .scan {}⟩ ∧
      (documentTree wordDocument).run ["scan"] =
        .error (.load (.setting (.badNumeral "two"))) ∧
      ¬ Exits ((documentTree wordDocument).run ["scan"]) := by
  have hRun :
      (documentTree wordDocument).run ["scan"] =
        .error (.load (.setting (.badNumeral "two"))) :=
    fault?_eq_some_iff.mp (by decide)
  refine ⟨holdsDocument_wordTree, rfl, hRun, ?_⟩
  rw [hRun]
  rintro (⟨out, hOut, _⟩ | ⟨cause, p, hCause⟩)
  · cases hOut
  · cases hCause

end FileTree

end CommentLint
