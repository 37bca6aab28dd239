import CommentLint.Config.Merge
import CommentLint.Gate
import CommentLint.Proofs.Config.Reading
import CommentLint.Proofs.Report.WrittenNumbers
import CommentLint.Proofs.Scan.WrittenLocations

/-
  Configurations without problems.

  The check of a configuration can be carried out where its
  settings are of kinds that compare, and it finds nothing
  where they have allowed values.  What it allows is what the
  rules, the report and the gate rely on, so that none of them
  fails under a configuration without problems.

  Key definitions include:
    * `Setting.isNumber`
    * `Config.IsComparable`
    * `Config.Accepted`
    * `ScanResult.IsRanked`
    * `Config.Serves`

  Key results include:
    * `Config.exists_problems_iff`
    * `Config.problems_eq_nil_iff`
    * `Selection.exists_build`
    * `Gate.exists_reasons`
    * `Config.serves_of_problems_eq_nil`
-/

namespace CommentLint

------------------------------------------------------------
-- Numbers
------------------------------------------------------------

namespace Setting

variable {s : Setting}
variable {n : Int}

/- Whether a setting counts as a number. -/
def isNumber : Setting → Bool
  | .bool _ => true
  | .integer _ => true
  | .decimal _ => true
  | _ => false

/- The numbers are the settings that compare with an integer. -/
theorem exists_compareInt?_iff :
    (∃ order, s.compareInt? n = .ok order) ↔
      s.isNumber = true := by
  cases s <;> simp [compareInt?, isNumber]

/-
  A number that is not below an integer.  A NaN is below no
  integer.
-/
def IsAtLeast
    (n : Int)
    (s : Setting) : Prop :=
  ∃ order, s.compareInt? n = .ok order ∧ order ≠ some .lt

/- What is not below an integer is a number. -/
theorem IsAtLeast.isNumber
    (h : s.IsAtLeast n) :
    s.isNumber = true := by
  rcases h with ⟨order, hOrder, _⟩
  exact exists_compareInt?_iff.mp ⟨order, hOrder⟩

/- An integer is compared by its value. -/
theorem isAtLeast_integer_iff
    {m : Int} :
    (integer m).IsAtLeast n ↔ n ≤ m := by
  simp [IsAtLeast, compareInt?, Int.compare_eq_lt]

/- A number from zero up to a bound of few digits has a text. -/
theorem exists_toText_of_lt
    {count : Nat}
    (hLow : s.IsAtLeast 0)
    (hOrder : s.compareInt? count = .ok (some .lt))
    (hCount : count ≤ Nat.pow 10 Numeral.digitLimit) :
    ∃ text, s.toText = .ok text := by
  cases s with
  | bool b => exact ⟨_, rfl⟩
  | decimal x => exact ⟨_, rfl⟩
  | integer m =>
      have hZero : 0 ≤ m :=
        isAtLeast_integer_iff.mp hLow
      have hLess : m < count := by
        simpa [compareInt?, Int.compare_eq_lt] using hOrder
      have hFew : m.natAbs < Nat.pow 10 Numeral.digitLimit := by
        omega
      exact
        exists_toText_iff.mpr (isWritable_integer_iff.mpr hFew)
  | null => cases hOrder
  | text t => cases hOrder
  | moment m => cases hOrder
  | list items => cases hOrder
  | table fields => cases hOrder

/- The only setting that is a text is the text itself. -/
theorem isText_iff
    {t : String} :
    s.isText t = true ↔ s = .text t := by
  cases s <;> simp [isText]

end Setting

------------------------------------------------------------
-- Problems of a Part
------------------------------------------------------------

namespace Config

variable {c : Config}
variable {s : Setting}

/- There is no problem where its condition fails. -/
theorem problemIf_eq_nil_iff
    {condition : Bool}
    {p : ConfigProblem} :
    problemIf condition p = [] ↔ condition = false := by
  cases condition <;> simp [problemIf]

/- The jobs can be checked when they are a number. -/
theorem exists_jobsProblems_iff :
    (∃ ps, jobsProblems s = .ok ps) ↔ s.isNumber = true := by
  rw [← Setting.exists_compareInt?_iff (n := 1)]
  unfold jobsProblems
  cases s.compareInt? 1 <;> simp [Except.map]

/- The jobs are without problem from one upwards. -/
theorem jobsProblems_eq_nil_iff :
    jobsProblems s = .ok [] ↔ s.IsAtLeast 1 := by
  unfold jobsProblems Setting.IsAtLeast
  cases s.compareInt? 1 <;>
    simp [Except.map, problemIf_eq_nil_iff]

/- A limit can be checked when it is missing or a number. -/
theorem exists_limitProblems_iff
    {name : String} :
    (∃ ps, limitProblems name s = .ok ps) ↔
      s = .null ∨ s.isNumber = true := by
  rw [← Setting.exists_compareInt?_iff (n := 0),
    ← Setting.isNull_iff]
  unfold limitProblems
  cases s.isNull with
  | true => simp
  | false => cases s.compareInt? 0 <;> simp [Except.map]

/- A limit is without problem when missing or not negative. -/
theorem limitProblems_eq_nil_iff
    {name : String} :
    limitProblems name s = .ok [] ↔
      s = .null ∨ s.IsAtLeast 0 := by
  rw [← Setting.isNull_iff]
  unfold limitProblems Setting.IsAtLeast
  cases s.isNull with
  | true => simp
  | false =>
      cases s.compareInt? 0 <;>
        simp [Except.map, problemIf_eq_nil_iff]

/- The severity that fails can be checked when it is a key. -/
theorem exists_failOnProblems_iff :
    (∃ ps, failOnProblems s = .ok ps) ↔ s.isKey = true := by
  cases s <;> simp [failOnProblems, Setting.isNull, Setting.isKey]

/- The severity that fails is missing or a label with a rank. -/
theorem failOnProblems_eq_nil_iff :
    failOnProblems s = .ok [] ↔
      s = .null ∨ ∃ label ∈ Severity.labels, s = .text label := by
  have hNamed :
      (Severity.labels.any fun l => s.isText l) = true ↔
        ∃ label ∈ Severity.labels, s = .text label := by
    simp [Setting.isText_iff]
  rw [← hNamed, ← Setting.isNull_iff]
  unfold failOnProblems
  cases s <;>
    simp [Setting.isNull, Setting.isKey, Setting.isText,
      problemIf_eq_nil_iff]

/- A rule is known and its severity a label with a rank. -/
theorem severityProblems_eq_nil_iff
    {id level : String} :
    severityProblems id level = [] ↔
      id ∈ Catalog.identifiers ∧ level ∈ Severity.labels := by
  simp [severityProblems, problemIf_eq_nil_iff]

/- The rules that are listed are known, and some are enabled. -/
theorem ruleProblems_eq_nil_iff :
    c.ruleProblems = [] ↔
      (∀ id ∈
          c.scan.enabledRules?.getD [] ++ c.scan.disabledRules,
        id ∈ Catalog.identifiers) ∧
        c.scan.enabledRules? ≠ some [] := by
  simp [ruleProblems, problemIf_eq_nil_iff, or_imp,
    forall_and, and_assoc]

------------------------------------------------------------
-- Problems of the Whole
------------------------------------------------------------

/- What checking a configuration finds, part by part. -/
theorem problems_eq_ok_iff
    {ps : List ConfigProblem} :
    c.problems = .ok ps ↔
      ∃ jobs,
        jobsProblems c.scan.jobs = .ok jobs ∧
      ∃ failOn,
        failOnProblems c.gate.failOn = .ok failOn ∧
      ∃ violations,
        limitProblems "max_violations" c.gate.maxViolations =
          .ok violations ∧
      ∃ warning,
        limitProblems "max_warning" c.gate.maxWarning =
          .ok warning ∧
      ∃ error,
        limitProblems "max_error" c.gate.maxError =
          .ok error ∧
      (c.sortedSeverities.flatMap fun (id, l) =>
            severityProblems id l) ++
          c.ruleProblems ++ jobs ++ failOn ++ violations ++
          warning ++ error ++
          problemIf
            (!reportFormats.any fun f =>
              c.report.format.isText f)
            .badFormat =
        ps := by
  unfold problems
  simp only [bind_eq_ok_iff, pure_eq_ok_iff]

/- The limits of a gate. -/
def limits (c : Config) : List Setting :=
  [c.gate.maxViolations, c.gate.maxWarning, c.gate.maxError]

/- A configuration that can be checked. -/
structure IsComparable (c : Config) : Prop where
  jobs : c.scan.jobs.isNumber = true
  failOn : c.gate.failOn.isKey = true
  limits :
    ∀ s ∈ c.limits, s = .null ∨ s.isNumber = true

/-
  A configuration with allowed values only: what it names is
  there, and what it counts is not too small.
-/
structure Accepted (c : Config) : Prop where
  severities :
    ∀ r ∈ c.severities,
      r.1 ∈ Catalog.identifiers ∧ r.2 ∈ Severity.labels
  listed :
    ∀ id ∈ c.scan.enabledRules?.getD [] ++ c.scan.disabledRules,
      id ∈ Catalog.identifiers
  enabled : c.scan.enabledRules? ≠ some []
  jobs : c.scan.jobs.IsAtLeast 1
  failOn :
    c.gate.failOn = .null ∨
      ∃ label ∈ Severity.labels, c.gate.failOn = .text label
  limits : ∀ s ∈ c.limits, s = .null ∨ s.IsAtLeast 0
  format : ∃ f ∈ reportFormats, c.report.format = .text f

/- A configuration can be checked when its settings compare. -/
theorem exists_problems_iff :
    (∃ ps, c.problems = .ok ps) ↔ c.IsComparable := by
  constructor
  · rintro ⟨ps, h⟩
    rcases problems_eq_ok_iff.mp h with
      ⟨_, hJobs, _, hFailOn, _, hTotal, _, hWarning, _, hError,
        _⟩
    refine
      ⟨exists_jobsProblems_iff.mp ⟨_, hJobs⟩,
        exists_failOnProblems_iff.mp ⟨_, hFailOn⟩, ?_⟩
    simp only [limits, List.forall_mem_cons]
    exact
      ⟨exists_limitProblems_iff.mp ⟨_, hTotal⟩,
        exists_limitProblems_iff.mp ⟨_, hWarning⟩,
        exists_limitProblems_iff.mp ⟨_, hError⟩, by simp⟩
  · intro h
    have hLimits := h.limits
    simp only [limits, List.forall_mem_cons] at hLimits
    rcases exists_jobsProblems_iff.mpr h.jobs with ⟨_, hJobs⟩
    rcases exists_failOnProblems_iff.mpr h.failOn with
      ⟨_, hFailOn⟩
    rcases exists_limitProblems_iff.mpr hLimits.1 with
      ⟨_, hTotal⟩
    rcases exists_limitProblems_iff.mpr hLimits.2.1 with
      ⟨_, hWarning⟩
    rcases exists_limitProblems_iff.mpr hLimits.2.2.1 with
      ⟨_, hError⟩
    exact
      ⟨_, problems_eq_ok_iff.mpr
        ⟨_, hJobs, _, hFailOn, _, hTotal, _, hWarning, _, hError,
          rfl⟩⟩

/- The severities are without problem, in whatever order. -/
theorem flatMap_severityProblems_eq_nil_iff :
    (c.sortedSeverities.flatMap fun (id, l) =>
        severityProblems id l) = [] ↔
      ∀ r ∈ c.severities,
        r.1 ∈ Catalog.identifiers ∧ r.2 ∈ Severity.labels := by
  simp only [List.flatMap_eq_nil_iff, sortedSeverities,
    List.mem_mergeSort, severityProblems_eq_nil_iff]

/- The format is without problem when it is one of a report. -/
theorem formatProblems_eq_nil_iff :
    problemIf
        (!reportFormats.any fun f => s.isText f)
        .badFormat = [] ↔
      ∃ f ∈ reportFormats, s = .text f := by
  simp [problemIf_eq_nil_iff, Setting.isText_iff]

/- Nothing is found where all values are allowed, and only there. -/
theorem problems_eq_nil_iff :
    c.problems = .ok [] ↔ c.Accepted := by
  simp only [problems_eq_ok_iff, List.append_eq_nil_iff,
    flatMap_severityProblems_eq_nil_iff,
    ruleProblems_eq_nil_iff, formatProblems_eq_nil_iff]
  constructor
  · rintro
      ⟨_, hJobs, _, hFailOn, _, hTotal, _, hWarning, _, hError,
        ⟨⟨⟨⟨⟨⟨hSeverities, hListed, hEnabled⟩, rfl⟩, rfl⟩, rfl⟩,
          rfl⟩, rfl⟩, hFormat⟩
    refine
      { severities := hSeverities
        listed := hListed
        enabled := hEnabled
        jobs := jobsProblems_eq_nil_iff.mp hJobs
        failOn := failOnProblems_eq_nil_iff.mp hFailOn
        limits := ?_
        format := hFormat }
    simp only [limits, List.forall_mem_cons]
    exact
      ⟨limitProblems_eq_nil_iff.mp hTotal,
        limitProblems_eq_nil_iff.mp hWarning,
        limitProblems_eq_nil_iff.mp hError, by simp⟩
  · intro h
    have hLimits := h.limits
    simp only [limits, List.forall_mem_cons] at hLimits
    exact
      ⟨_, jobsProblems_eq_nil_iff.mpr h.jobs,
        _, failOnProblems_eq_nil_iff.mpr h.failOn,
        _, limitProblems_eq_nil_iff.mpr hLimits.1,
        _, limitProblems_eq_nil_iff.mpr hLimits.2.1,
        _, limitProblems_eq_nil_iff.mpr hLimits.2.2.1,
        ⟨⟨⟨⟨⟨⟨h.severities, h.listed, h.enabled⟩, rfl⟩, rfl⟩,
          rfl⟩, rfl⟩, rfl⟩, h.format⟩

end Config

------------------------------------------------------------
-- The Rules
------------------------------------------------------------

/- A severity that has a rank. -/
def Severity.IsRanked (s : Severity) : Prop :=
  s = .warning ∨ s = .error

/- There are two labels with a rank. -/
theorem Severity.mem_labels_iff
    {label : String} :
    label ∈ labels ↔ label = "warning" ∨ label = "error" := by
  simp [labels]

/- The label of a severity with a rank names that severity. -/
theorem Severity.isRanked_ofLabel
    {label : String}
    (h : label ∈ labels) :
    (ofLabel label).IsRanked := by
  rcases mem_labels_iff.mp h with rfl | rfl
  · exact Or.inl rfl
  · exact Or.inr rfl

namespace Selection

variable {sel : Selection}
variable {r r' : Rule}
variable {rules : List Rule}

/- A label with a rank stands for its severity. -/
theorem severityOf_label
    {label : String}
    (h : label ∈ Severity.labels) :
    severityOf (.text label) = .ok (Severity.ofLabel label) := by
  rcases Severity.mem_labels_iff.mp h with rfl | rfl
  · rfl
  · rfl

/- What a setting stands for is a severity with a rank. -/
theorem isRanked_of_severityOf
    {s : Setting}
    {level : Severity}
    (h : severityOf s = .ok level) :
    level.IsRanked := by
  unfold severityOf at h
  split at h
  · cases h
  · split at h
    · cases h
      exact Or.inl rfl
    · split at h
      · cases h
        exact Or.inr rfl
      · split at h
        · cases h
        · cases h

/- A rule with a rank is given one with a rank. -/
theorem isRanked_of_atSeverity
    (hRanked : r.severity.IsRanked)
    (h : sel.atSeverity r = .ok r') :
    r'.severity.IsRanked := by
  unfold atSeverity at h
  split at h
  · cases h
    exact hRanked
  · cases h
    exact hRanked
  · rcases map_eq_ok_iff.mp h with ⟨level, hLevel, rfl⟩
    exact isRanked_of_severityOf hLevel

/- The rules of a selection have severities with a rank. -/
theorem isRanked_of_build
    (h : sel.build = .ok rules)
    (hMem : r ∈ rules) :
    r.severity.IsRanked := by
  unfold build at h
  dsimp only at h
  split at h
  · cases h
  · split at h
    · cases h
    · rcases (mem_iff_of_mapM h).mp hMem with ⟨q, hIn, hGives⟩
      apply isRanked_of_atSeverity _ hGives
      have hCatalog :
          q ∈ Catalog.rules :=
        List.mem_of_mem_filter hIn
      simp only [Catalog.rules, List.mem_singleton] at hCatalog
      rw [hCatalog]
      exact Or.inl rfl

end Selection

namespace Config

variable {c : Config}
variable {id : String}

/- The severity that is asked for a rule is one that is given. -/
theorem exists_label_of_lookup
    {s : Setting}
    (h : c.selection.severities.lookup id = some s) :
    ∃ label, (id, label) ∈ c.severities ∧ s = .text label := by
  rcases List.lookup_eq_some_iff.mp h with
    ⟨before, after, hSplit, _⟩
  have hMem :
      (id, s) ∈ c.selection.severities := by
    rw [hSplit]
    simp
  rcases List.mem_map.mp hMem with ⟨⟨i, label⟩, hIn, hPair⟩
  cases hPair
  exact ⟨label, hIn, rfl⟩

/- The rules of a configuration with allowed values can be built. -/
theorem Accepted.exists_build
    (h : c.Accepted) :
    ∃ rules, c.selection.build = .ok rules := by
  have hKnown :
      ((c.selection.severities.map Prod.fst).filter
        fun id => !Catalog.identifiers.contains id) = [] := by
    rw [List.filter_eq_nil_iff]
    intro id hMem
    simp only [selection, List.map_map, List.mem_map,
      Function.comp_apply] at hMem
    rcases hMem with ⟨r, hIn, rfl⟩
    simpa using (h.severities r hIn).1
  have hKeys :
      ((c.selection.enabled?.getD []) ++
        c.selection.disabled).all Setting.isKey = true := by
    cases hEnabled : c.scan.enabledRules? <;>
      simp [selection, hEnabled, Setting.isKey]
  unfold Selection.build
  dsimp only
  rw [hKnown, hKeys, if_neg (by simp), if_neg (by simp),
    exists_mapM_iff]
  intro r _
  unfold Selection.atSeverity
  cases hLookup :
      c.selection.severities.lookup r.info.identifier with
  | none => exact ⟨r, rfl⟩
  | some s =>
      rcases exists_label_of_lookup hLookup with
        ⟨label, hMem, rfl⟩
      exact
        exists_map_iff.mpr
          ⟨_, Selection.severityOf_label
            (h.severities _ hMem).2⟩

end Config

------------------------------------------------------------
-- Violations
------------------------------------------------------------

section Ranked

variable {rules : List Rule}
variable {v : Violation}

/- A violation has the severity of one of the rules. -/
theorem exists_severity_of_mem_lint
    {f : SourceFile}
    (h : v ∈ lint rules f) :
    ∃ r ∈ rules, v.severity = r.severity := by
  rcases exists_violationAt_of_mem_lint h with
    ⟨r, hRule, _, rfl⟩
  exact ⟨r, hRule, rfl⟩

/- What is found in a file has the ranks of the rules. -/
theorem FileTree.isRanked_of_scanFile
    {t : FileTree}
    {inlineIgnore : Bool}
    {p : Path}
    {relative : String}
    {found : List Violation}
    (hRules : ∀ r ∈ rules, r.severity.IsRanked)
    (h : t.scanFile rules inlineIgnore p relative = .ok found)
    (hMem : v ∈ found) :
    v.severity.IsRanked := by
  unfold scanFile at h
  split at h
  · cases h
    rcases exists_severity_of_mem_lint
        (Scan.lintBytes_sublist.subset hMem) with
      ⟨r, hRule, hSeverity⟩
    rw [hSeverity]
    exact hRules r hRule
  · cases h
  · cases h
    rw [List.mem_singleton.mp hMem]
    exact Or.inl rfl

end Ranked

/- A result of which every violation has a rank. -/
def ScanResult.IsRanked (r : ScanResult) : Prop :=
  ∀ v ∈ r.violations, v.severity.IsRanked

/- What a scan finds has the ranks of the rules. -/
theorem FileTree.isRanked_of_scanFiles
    {t : FileTree}
    {r : Scan.Request}
    {files : List (Path × String)}
    {result : ScanResult}
    (hRules : ∀ q ∈ r.rules, q.severity.IsRanked)
    (h : t.scanFiles r files = .ok result) :
    result.IsRanked := by
  intro v hMem
  rcases exists_scanFile_of_scanFiles h hMem with
    ⟨_, _, found, hScan, hMem⟩
  exact isRanked_of_scanFile hRules hScan hMem

------------------------------------------------------------
-- The Gate
------------------------------------------------------------

/-
  A result with no more violations than a number of the
  greatest length that is written.  No list that a machine
  holds is as long as that.
-/
def ScanResult.IsCountable (r : ScanResult) : Prop :=
  r.violations.length ≤ Nat.pow 10 Numeral.digitLimit

/- Where totals can be written, violations can be counted. -/
theorem ScanResult.IsSummable.isCountable
    {r : ScanResult}
    (h : r.IsSummable) :
    r.IsCountable :=
  le_of_lt h.total

namespace Gate

variable {r : ScanResult}
variable {g : GateConfig}

/- A severity with a rank has that rank. -/
theorem exists_rank
    {s : Severity}
    (h : s.IsRanked) :
    ∃ n, rank s = .ok n := by
  rcases h with rfl | rfl
  · exact ⟨1, rfl⟩
  · exact ⟨2, rfl⟩

/- Whether violations with ranks reach a rank can be told. -/
theorem exists_reaches
    {vs : List Violation}
    (h : ∀ v ∈ vs, v.severity.IsRanked)
    (limit : Nat) :
    ∃ reached, reaches limit vs = .ok reached := by
  induction vs with
  | nil => exact ⟨false, rfl⟩
  | cons v rest ih =>
      rcases exists_rank (h v List.mem_cons_self) with
        ⟨n, hRank⟩
      unfold reaches
      rw [hRank]
      by_cases hReach : limit ≤ n
      · exact ⟨true, if_pos hReach⟩
      · rcases ih fun w hMem =>
            h w (List.mem_cons_of_mem v hMem) with
          ⟨reached, hRest⟩
        exact ⟨reached, (if_neg hReach).trans hRest⟩

/- The severity that fails can be compared with those found. -/
theorem exists_severityReasons
    {failOn : Setting}
    (hRanked : r.IsRanked)
    (h :
      failOn = .null ∨
        ∃ label ∈ Severity.labels, failOn = .text label) :
    ∃ reasons,
      severityReasons r.violations failOn = .ok reasons := by
  rcases h with rfl | ⟨label, hMem, rfl⟩
  · exact ⟨[], rfl⟩
  · rcases exists_rank (Severity.isRanked_ofLabel hMem) with
      ⟨limit, hLimit⟩
    rcases exists_reaches hRanked limit with
      ⟨reached, hReached⟩
    have hThreshold :
        threshold (.text label) = .ok limit := hLimit
    unfold severityReasons
    rw [if_neg (by simp [Setting.isNull]), hThreshold]
    change
      ∃ reasons,
        (reaches limit r.violations >>= _) = .ok reasons
    rw [hReached]
    cases reached with
    | true => exact ⟨_, rfl⟩
    | false => exact ⟨_, rfl⟩

/-
  A count can be compared with a limit that is missing or not
  negative.  A limit that the count exceeds has a text, for
  its digits are not more than those of the count.
-/
theorem exists_limitReasons
    {count : Nat}
    {reason : String → GateReason}
    {limit : Setting}
    (hLimit : limit = .null ∨ limit.IsAtLeast 0)
    (hCount : count ≤ Nat.pow 10 Numeral.digitLimit) :
    ∃ reasons,
      limitReasons count reason limit = .ok reasons := by
  unfold limitReasons
  by_cases hNull : limit.isNull = true
  · exact ⟨[], if_pos hNull⟩
  · rw [if_neg hNull]
    rcases hLimit with rfl | hLimit
    · exact absurd rfl hNull
    · rcases Setting.exists_compareInt?_iff.mpr
          hLimit.isNumber with
        ⟨order, hOrder⟩
      rw [hOrder]
      change
        ∃ reasons,
          (if order = some .lt then
              (limit.toText.mapError GateError.setting >>= _)
            else pure []) =
            .ok reasons
      by_cases hExceeds : order = some .lt
      · rw [if_pos hExceeds]
        subst hExceeds
        rcases Setting.exists_toText_of_lt hLimit hOrder
            hCount with
          ⟨text, hText⟩
        rw [hText]
        exact ⟨_, rfl⟩
      · rw [if_neg hExceeds]
        exact ⟨[], rfl⟩

/- The gate can be evaluated where its settings are allowed. -/
theorem exists_reasons
    (hRanked : r.IsRanked)
    (hCountable : r.IsCountable)
    (hFailOn :
      g.failOn = .null ∨
        ∃ label ∈ Severity.labels, g.failOn = .text label)
    (hViolations :
      g.maxViolations = .null ∨ g.maxViolations.IsAtLeast 0)
    (hWarning :
      g.maxWarning = .null ∨ g.maxWarning.IsAtLeast 0)
    (hError : g.maxError = .null ∨ g.maxError.IsAtLeast 0) :
    ∃ reasons, Gate.reasons r g = .ok reasons := by
  have hCount :
      ∀ s, r.count s ≤ Nat.pow 10 Numeral.digitLimit :=
    fun s => List.countP_le_length.trans hCountable
  unfold reasons
  simp only [exists_bind_iff, pure_eq_ok_iff, exists_eq',
    and_true, exists_and_right]
  exact
    ⟨exists_severityReasons hRanked hFailOn,
      exists_limitReasons hViolations hCountable,
      exists_limitReasons hWarning (hCount .warning),
      exists_limitReasons hError (hCount .error)⟩

end Gate

/- The gate of a configuration with allowed values is evaluated. -/
theorem Config.Accepted.exists_reasons
    {c : Config}
    {r : ScanResult}
    (h : c.Accepted)
    (hRanked : r.IsRanked)
    (hCountable : r.IsCountable) :
    ∃ reasons, Gate.reasons r c.gate = .ok reasons := by
  have hLimits := h.limits
  simp only [Config.limits, List.forall_mem_cons] at hLimits
  exact
    Gate.exists_reasons hRanked hCountable h.failOn hLimits.1
      hLimits.2.1 hLimits.2.2.1

------------------------------------------------------------
-- Configurations That Serve
------------------------------------------------------------

/-
  A configuration serves a scan: its rules can be built, they
  find violations with ranks only, and on results with ranks
  the report can be rendered and the gate evaluated, as far as
  their numbers can be written.  What the rules find has such
  numbers wherever the size of the file has not too many
  digits.
-/
structure Config.Serves
    (c : Config)
    (rules : List Rule) : Prop where
  build : c.selection.build = .ok rules
  numbers :
    ∀ data path,
      Numeral.IsWritable data.length →
        ∀ v ∈ lint rules (SourceFile.read data path),
          v.location.IsWritable
  lint :
    ∀ f, ∀ v ∈ lint rules f, v.severity.IsRanked
  scanFile :
    ∀ (t : FileTree) inlineIgnore p relative found,
      t.scanFile rules inlineIgnore p relative = .ok found →
        ∀ v ∈ found, v.severity.IsRanked
  report :
    ∀ r : ScanResult, r.IsRanked → r.IsWritable →
      ∃ text, Report.renderAs c.report.format r = .ok text
  gate :
    ∀ r : ScanResult, r.IsRanked → r.IsCountable →
      ∃ reasons, Gate.reasons r c.gate = .ok reasons

/-
  A configuration without problems serves a scan, whatever it
  was read from and whatever options were merged into it.
-/
theorem Config.serves_of_problems_eq_nil
    {c : Config}
    (h : c.problems = .ok []) :
    ∃ rules, c.Serves rules := by
  have hAccepted := problems_eq_nil_iff.mp h
  rcases hAccepted.exists_build with ⟨rules, hBuild⟩
  have hRanked :
      ∀ r ∈ rules, r.severity.IsRanked :=
    fun _ => Selection.isRanked_of_build hBuild
  refine
    ⟨rules,
      { build := hBuild
        numbers := fun _ _ hFew _ hMem =>
          isWritable_of_mem_lint hBuild hFew hMem
        lint := ?_
        scanFile := ?_
        report := ?_
        gate := ?_ }⟩
  · intro f v hMem
    rcases exists_severity_of_mem_lint hMem with
      ⟨r, hRule, hSeverity⟩
    rw [hSeverity]
    exact hRanked r hRule
  · intro t inlineIgnore p relative found hScan v hMem
    exact FileTree.isRanked_of_scanFile hRanked hScan hMem
  · intro r _ hWritable
    exact Report.exists_renderAs hAccepted.format hWritable
  · intro r hResult hCountable
    exact hAccepted.exists_reasons hResult hCountable

namespace Config

/- A setting in which a limit is a NaN, which no count exceeds. -/
def strictSetting : Setting :=
  .table
    [
      ("rules", .table [("Comment_Spacing", .text "Error")]),
      ("quality_gate", .table [("max_error", .decimal .nan)])
    ]

/- The options of a scan that fails at the least severity. -/
def strictOptions : ScanOptions :=
  { failOn? := some (.value "warning") }

/- The configuration that the setting gives with the options. -/
def strictConfig : Config :=
  { severities := [("comment_spacing", "error")]
    gate :=
      { failOn := .text "warning"
        maxError := .decimal .nan } }

/- Its values are allowed. -/
theorem accepted_strictConfig : strictConfig.Accepted where
  severities := by decide
  listed := by decide
  enabled := by decide
  jobs := ⟨some .eq, rfl, by decide⟩
  failOn := Or.inr ⟨"warning", by decide, rfl⟩
  limits := by
    intro s hMem
    have hLimits :
        s = .null ∨ s = .null ∨ s = .decimal .nan := by
      simpa [limits, strictConfig] using hMem
    rcases hLimits with rfl | rfl | rfl
    · exact Or.inl rfl
    · exact Or.inl rfl
    · exact Or.inr ⟨none, rfl, by decide⟩
  format := ⟨"text", by decide, rfl⟩

/- A configuration that was read and merged serves a scan. -/
theorem serves_strictConfig :
    (∃ c,
      ofSetting strictSetting = .ok c ∧
        c.merge strictOptions = .ok strictConfig) ∧
      strictConfig.problems = .ok [] ∧
        ∃ rules, strictConfig.Serves rules :=
  have hNone : strictConfig.problems = .ok [] :=
    problems_eq_nil_iff.mpr accepted_strictConfig
  ⟨⟨_, rfl, rfl⟩, hNone, serves_of_problems_eq_nil hNone⟩

end Config

end CommentLint
