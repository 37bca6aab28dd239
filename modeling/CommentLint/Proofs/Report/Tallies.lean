import CommentLint.Proofs.Gate.Leniency
import CommentLint.Proofs.Report.Lossless
import Mathlib.Algebra.BigOperators.Group.List.Lemmas
import Mathlib.Data.Finset.Card
import Mathlib.Data.List.Sort
import Mathlib.Data.String.Basic

/-
  The counts that a scan publishes.

  The JSON report, the SARIF log, the summary and the gate each
  count the violations by themselves.  What they publish are
  the numbers of one tally, which adds up: by severity, by rule
  and along the list of the violations.

  Key definitions include:
    * `Json.Value.at?`
    * `Report.Tally`
    * `Report.Tally.IsPublishedIn`
    * `Report.Tally.AddsUp`
    * `Report.Tally.IsToldBy`
    * `Gate.Judges`
    * `Gate.Limit`

  Key results include:
    * `Severity.label_inj`
    * `Report.sum_counts`
    * `Report.addsUp_tallyOf`
    * `Gate.LimitsOnly.judges`
    * `Report.counts_agree`
-/

namespace CommentLint

------------------------------------------------------------
-- Places in JSON Values
------------------------------------------------------------

namespace Json

/- A step into a value: to a field, or to an item. -/
inductive Step where
| field (name : String)
| item (n : Nat)

namespace Value

/- The value one step further in. -/
def step?
    (v : Value) : Step → Option Value
  | .field name => v.field? name
  | .item n =>
      match v with
      | .array items => items[n]?
      | _ => none

/- The value at the end of some steps. -/
def at?
    (v : Value)
    (steps : List Step) : Option Value :=
  steps.foldlM step? v

/- The text that a value is. -/
def text? : Value → Option String
  | .text s => some s
  | _ => none

end Value

end Json

/- Severities with a rank are told by their labels. -/
theorem Severity.label_inj
    {s s' : Severity}
    (h : s.IsRanked)
    (h' : s'.IsRanked) :
    s.label = s'.label ↔ s = s' := by
  rcases h with rfl | rfl
  · rcases h' with rfl | rfl <;> simp [label]
  · rcases h' with rfl | rfl <;> simp [label]

namespace Report

open Json

------------------------------------------------------------
-- Tallies
------------------------------------------------------------

/- The numbers of a report, and the violations that it lists. -/
@[ext] structure Tally where
  filesScanned : Int
  files : Nat
  total : Nat
  warnings : Nat
  errors : Nat
  rules : List (String × Nat)
  listed : List Value

namespace Tally

/- A JSON report holds the numbers and lists the violations. -/
structure IsPublishedIn
    (t : Tally)
    (report : Value) : Prop where
  filesScanned :
    report.at? [.field "files_scanned"] =
      some (.integer t.filesScanned)
  files :
    report.at? [.field "files_with_violations"] =
      some (.integer t.files)
  total :
    report.at? [.field "violations_total"] =
      some (.integer t.total)
  warnings :
    report.at? [.field "severity_counts", .field "warning"] =
      some (.integer t.warnings)
  errors :
    report.at? [.field "severity_counts", .field "error"] =
      some (.integer t.errors)
  rules :
    report.at? [.field "rule_counts"] =
      some
        (.object (t.rules.map fun p => (p.1, .integer p.2)))
  listed :
    report.at? [.field "violations"] = some (.array t.listed)

/- The texts that the listed violations have in a field. -/
def texts
    (t : Tally)
    (name : String) : List String :=
  t.listed.filterMap fun w => (w.field? name).bind Value.text?

/-
  The numbers add up: by severity, by rule and along the list,
  whose violations all name a rule, a severity and a file.
-/
structure AddsUp (t : Tally) : Prop where
  bySeverity : t.total = t.warnings + t.errors
  byRule : t.total = (t.rules.map Prod.snd).sum
  byList : t.total = t.listed.length
  named :
    ∀ name ∈ ["rule_id", "severity", "file_path"],
      (t.texts name).length = t.listed.length
  ofWarnings : t.warnings = (t.texts "severity").count "warning"
  ofErrors : t.errors = (t.texts "severity").count "error"
  ordered : t.rules.Pairwise fun p q => p.1 < q.1
  ofRule :
    ∀ p ∈ t.rules, p.2 = (t.texts "rule_id").count p.1
  ofFiles : t.files = (t.texts "file_path").toFinset.card

/- The line that tells the totals. -/
def line (t : Tally) : String :=
  "[summary] files=" ++ t.filesScanned.repr ++ " violations=" ++
    t.total.repr ++ " warning=" ++ t.warnings.repr ++ " error=" ++
    t.errors.repr

/- The totals have not too many digits. -/
def IsSummable (t : Tally) : Prop :=
  Numeral.IsWritable t.filesScanned ∧ Numeral.IsWritable t.total

/- The line is told, unless a total has too many digits. -/
structure IsToldBy
    (t : Tally)
    (summary : Except Numeral.Error String) : Prop where
  tells : summary = .ok t.line ↔ t.IsSummable
  stops : summary = .error .tooLargeToWrite ↔ ¬ t.IsSummable

/- A report publishes one tally. -/
theorem IsPublishedIn.unique
    {t t' : Tally}
    {report : Value}
    (h : t.IsPublishedIn report)
    (h' : t'.IsPublishedIn report) :
    t = t' := by
  have hScanned := h.filesScanned.symm.trans h'.filesScanned
  have hFiles := h.files.symm.trans h'.files
  have hTotal := h.total.symm.trans h'.total
  have hWarnings := h.warnings.symm.trans h'.warnings
  have hErrors := h.errors.symm.trans h'.errors
  have hRules := h.rules.symm.trans h'.rules
  have hListed := h.listed.symm.trans h'.listed
  simp only [Option.some.injEq, Value.integer.injEq,
    Value.object.injEq, Value.array.injEq, Int.ofNat_inj]
    at hScanned hFiles hTotal hWarnings hErrors hRules hListed
  have hPairs : t.rules = t'.rules := by
    refine List.map_injective_iff.mpr ?_ hRules
    rintro ⟨id, n⟩ ⟨id', n'⟩ hSame
    simpa using hSame
  exact
    Tally.ext hScanned hFiles hTotal hWarnings hErrors hPairs
      hListed

end Tally

------------------------------------------------------------
-- Counts
------------------------------------------------------------

section Counts

variable {items : List String}

/- Strings kept once are those of the list without repetition. -/
theorem distinct_perm_dedup (items : List String) :
    (distinct items).Perm items.dedup := by
  rw [List.perm_ext_iff_of_nodup (nodup_distinct items)
    (List.nodup_dedup items)]
  intro x
  rw [mem_distinct_iff, List.mem_dedup]

/- There are as many of them as there are different strings. -/
theorem length_distinct (items : List String) :
    (distinct items).length = items.toFinset.card := by
  rw [(distinct_perm_dedup items).length_eq, List.card_toFinset]

/- The counts of all strings sum to the length of the list. -/
theorem sum_counts (items : List String) :
    ((counts items).map Prod.snd).sum = items.length := by
  have hPerm :
      (Selection.sortedSet items).Perm items.dedup :=
    (List.mergeSort_perm _ _).trans (distinct_perm_dedup items)
  have hCounts :
      (counts items).map Prod.snd =
        (Selection.sortedSet items).map fun s =>
          items.count s := by
    simp [counts, Function.comp_def]
  rw [hCounts, (hPerm.map _).sum_eq,
    List.sum_map_count_dedup_eq_length]

/- The strings that are counted strictly increase. -/
theorem counts_pairwise_lt (items : List String) :
    (counts items).Pairwise fun p q => p.1 < q.1 := by
  have hLe :
      (counts items).Pairwise fun p q => p.1 ≤ q.1 := by
    unfold counts Selection.sortedSet
    rw [List.pairwise_map]
    exact List.pairwise_mergeSort' (· ≤ ·) _
  have hNe :
      (counts items).Pairwise fun p q => p.1 ≠ q.1 := by
    rw [← List.pairwise_map, ← List.nodup_iff_pairwise_ne]
    exact nodup_counts items
  exact
    (hLe.and hNe).imp fun h => lt_of_le_of_ne h.1 h.2

end Counts

------------------------------------------------------------
-- The Tally of a Result
------------------------------------------------------------

variable {r : ScanResult}

/- Each violation with a rank is a warning or an error. -/
theorem count_add_count
    (hRanked : r.IsRanked) :
    r.count .warning + r.count .error = r.violations.length := by
  have hOther :
      r.violations.countP
          (fun v => decide ¬(v.severity == .warning) = true) =
        r.count .error := by
    -- With a rank, what is no warning is an error.
    apply List.countP_congr
    intro v hMem
    rcases hRanked v hMem with hSeverity | hSeverity
    · simp [hSeverity]
    · simp [hSeverity]
  rw [List.length_eq_countP_add_countP fun v =>
    v.severity == .warning, hOther]
  rfl

/- The tally that the reports of a result publish. -/
def tallyOf (r : ScanResult) : Tally where
  filesScanned := r.filesScanned
  files := filesWithViolations r
  total := r.violations.length
  warnings := r.count .warning
  errors := r.count .error
  rules := counts (r.violations.map fun v => v.ruleId)
  listed := r.violations.map violationValue

/- The JSON report publishes it. -/
theorem isPublishedIn_tallyOf (r : ScanResult) :
    (tallyOf r).IsPublishedIn (jsonValue r) where
  filesScanned := rfl
  files := rfl
  total := rfl
  warnings := rfl
  errors := rfl
  rules := rfl
  listed := rfl

/- The texts of a field of the listed violations. -/
theorem texts_tallyOf
    {name : String}
    {textOf : Violation → String}
    (hField :
      ∀ v, (violationValue v).field? name =
        some (.text (textOf v))) :
    (tallyOf r).texts name = r.violations.map textOf := by
  unfold Tally.texts tallyOf
  rw [List.filterMap_map]
  simp [Function.comp_def, hField, Value.text?]

/- The texts of the fields that are counted. -/
theorem texts_ruleId :
    (tallyOf r).texts "rule_id" =
      r.violations.map fun v => v.ruleId :=
  texts_tallyOf fun _ => rfl

theorem texts_severity :
    (tallyOf r).texts "severity" =
      r.violations.map fun v => v.severity.label :=
  texts_tallyOf fun _ => rfl

theorem texts_filePath :
    (tallyOf r).texts "file_path" =
      r.violations.map fun v => v.location.path :=
  texts_tallyOf fun _ => rfl

/- Severities with a rank are counted by their labels. -/
theorem count_label
    (hRanked : r.IsRanked)
    {s : Severity}
    (hSeverity : s.IsRanked) :
    (r.violations.map fun v => v.severity.label).count s.label =
      r.count s := by
  unfold List.count ScanResult.count
  rw [List.countP_map]
  apply List.countP_congr
  intro v hMem
  simpa using Severity.label_inj (hRanked v hMem) hSeverity

/- The numbers of a result add up. -/
theorem addsUp_tallyOf
    (hRanked : r.IsRanked) :
    (tallyOf r).AddsUp where
  bySeverity := (count_add_count hRanked).symm
  byRule := by
    have hSum := sum_counts (r.violations.map fun v => v.ruleId)
    rw [List.length_map] at hSum
    exact hSum.symm
  byList := (List.length_map violationValue).symm
  named := by
    have hListed :
        (tallyOf r).listed.length = r.violations.length :=
      List.length_map violationValue
    simp [texts_ruleId, texts_severity, texts_filePath, hListed]
  ofWarnings := by
    rw [texts_severity]
    exact (count_label hRanked (Or.inl rfl)).symm
  ofErrors := by
    rw [texts_severity]
    exact (count_label hRanked (Or.inr rfl)).symm
  ordered := counts_pairwise_lt _
  ofRule p hMem := by
    rw [texts_ruleId]
    exact eq_count_of_mem_counts hMem
  ofFiles := by
    rw [texts_filePath]
    exact length_distinct _

------------------------------------------------------------
-- The SARIF Log
------------------------------------------------------------

/- The place of the results in a log. -/
def resultsSteps : List Step :=
  [.field "runs", .item 0, .field "results"]

/- The place of the location in a result. -/
def locationSteps : List Step :=
  [.field "locations", .item 0, .field "physicalLocation"]

/- Where a listed violation and a result hold the same. -/
def sharedSteps : List (List Step × List Step) :=
  [
    ([.field "rule_id"], [.field "ruleId"]),
    ([.field "severity"], [.field "level"]),
    ([.field "file_path"],
      locationSteps ++ [.field "artifactLocation", .field "uri"]),
    ([.field "line"],
      locationSteps ++ [.field "region", .field "startLine"]),
    ([.field "column"],
      locationSteps ++ [.field "region", .field "startColumn"]),
    ([.field "byte_offset"],
      locationSteps ++ [.field "region", .field "byteOffset"])
  ]

/- A result tells of a listed violation. -/
structure TellsOf (result listed : Value) : Prop where
  shared :
    ∀ p ∈ sharedSteps,
      ∃ x, listed.at? p.1 = some x ∧ result.at? p.2 = some x
  message :
    ∃ title message,
      listed.at? [.field "title"] = some (.text title) ∧
        listed.at? [.field "message"] = some (.text message) ∧
        result.at? [.field "message", .field "text"] =
          some (.text (title ++ ": " ++ message))

/- The result of a violation tells of it. -/
theorem tellsOf_sarifResult (v : Violation) :
    TellsOf (sarifResult v) (violationValue v) where
  shared := by
    simp only [sharedSteps, List.forall_mem_cons]
    exact
      ⟨⟨_, rfl, rfl⟩, ⟨_, rfl, rfl⟩, ⟨_, rfl, rfl⟩,
        ⟨_, rfl, rfl⟩, ⟨_, rfl, rfl⟩, ⟨_, rfl, rfl⟩, by simp⟩
  message := ⟨_, _, rfl, rfl, rfl⟩

/- The results tell of the listed violations, one by one. -/
theorem forall₂_tellsOf (r : ScanResult) :
    (r.violations.map sarifResult).Forall₂ TellsOf
      (tallyOf r).listed := by
  unfold tallyOf
  rw [List.forall₂_map_left_iff, List.forall₂_map_right_iff,
    List.forall₂_same]
  exact fun v _ => tellsOf_sarifResult v

end Report

------------------------------------------------------------
-- Gates of One Limit
------------------------------------------------------------

namespace Gate

variable {r : ScanResult}
variable {g : GateConfig}

/- A gate has one limit, and it is for a count of a result. -/
structure LimitsOnly
    (r : ScanResult)
    (g : GateConfig)
    (limit : Setting)
    (count : Nat) : Prop where
  failOn : g.failOn = .null
  given : (limit, count) ∈ counted r g
  alone :
    ∀ c ∈ counted r g, c = (limit, count) ∨ c.1 = .null

/-
  What a gate says of a count by the integer that it is given:
  the count passes when it does not exceed the integer, and
  fails when it does.  To fail, the integer has to be written,
  so that one of too many digits stops the gate instead.
-/
structure Judges
    (said : Except GateError Bool)
    (m : Int)
    (count : Nat) : Prop where
  passes : said = .ok true ↔ count ≤ m
  fails : said = .ok false ↔ m < count ∧ Numeral.IsWritable m
  stops :
    said = .error (.setting (.numeral .tooLargeToWrite)) ↔
      m < count ∧ ¬ Numeral.IsWritable m

/- A result fails when reasons are found. -/
theorem verdict_eq_false_iff :
    verdict r g = .ok false ↔
      (∃ found, reasons r g = .ok found) ∧
        ¬ reasons r g = .ok [] := by
  unfold verdict
  rw [map_eq_ok_iff]
  constructor
  · rintro ⟨found, hFound, hEmpty⟩
    refine ⟨⟨found, hFound⟩, ?_⟩
    rw [hFound]
    rintro ⟨rfl⟩
    cases hEmpty
  · rintro ⟨⟨found, hFound⟩, hSome⟩
    refine ⟨found, hFound, ?_⟩
    cases found with
    | nil => exact absurd hFound hSome
    | cons _ _ => rfl

namespace LimitsOnly

variable {limit : Setting}
variable {count : Nat}
variable {m : Int}

/- What holds where there is no limit is for the one limit. -/
theorem forall_iff
    {P : Setting → Nat → Prop}
    (h : LimitsOnly r g limit count)
    (hNull : ∀ n, P .null n) :
    (∀ c ∈ counted r g, P c.1 c.2) ↔ P limit count := by
  constructor
  · intro hAll
    exact hAll _ h.given
  · intro hLimit c hMem
    rcases h.alone c hMem with rfl | hNone
    · exact hLimit
    · rw [hNone]
      exact hNull c.2

/- A gate of one integer is usual. -/
theorem isUsual
    (h : LimitsOnly r g (.integer m) count) :
    g.IsUsual := by
  have hLimits :
      ∀ c ∈ counted r g, IsIntegerLimit c.1 := by
    rw [h.forall_iff (P := fun limit _ => IsIntegerLimit limit)
      fun _ => Or.inl rfl]
    exact Or.inr ⟨m, rfl⟩
  simp only [counted, List.forall_mem_cons] at hLimits
  exact ⟨Or.inl h.failOn, hLimits.1, hLimits.2.1, hLimits.2.2.1⟩

/- A result passes when its count is allowed. -/
theorem reasons_eq_nil_iff
    (hRanked : r.IsRanked)
    (h : LimitsOnly r g (.integer m) count) :
    reasons r g = .ok [] ↔ count ≤ m := by
  have hTolerates :
      ∀ v ∈ r.violations, Tolerates g.failOn v.severity := by
    rw [h.failOn]
    exact fun _ _ => tolerates_null
  rw [Gate.reasons_eq_nil_iff hRanked h.isUsual.failOn,
    and_iff_right hTolerates, h.forall_iff fun _ => allows_null]
  simp [Allows, Setting.isAtLeast_integer_iff]

/- The gate is evaluated when the limit can be reported. -/
theorem exists_reasons_iff
    (hRanked : r.IsRanked)
    (h : LimitsOnly r g (.integer m) count) :
    (∃ found, reasons r g = .ok found) ↔
      (m < count →
        m.natAbs < Nat.pow 10 Numeral.digitLimit) := by
  rw [Gate.exists_reasons_iff hRanked h.isUsual,
    h.forall_iff fun _ => isReportable_null]
  constructor
  · intro hReportable
    exact hReportable m rfl
  · rintro hReportable _ ⟨rfl⟩
    exact hReportable

end LimitsOnly

/- A result that is neither passed nor failed stops the gate. -/
theorem exists_verdict_error_iff :
    (∃ e, verdict r g = .error e) ↔
      ¬ ∃ found, reasons r g = .ok found := by
  unfold verdict
  cases reasons r g <;> simp [Except.map]

/- A gate of one limit judges the count of that limit. -/
theorem LimitsOnly.judges
    {m : Int}
    {count : Nat}
    (hRanked : r.IsRanked)
    (h : LimitsOnly r g (.integer m) count) :
    Judges (verdict r g) m count where
  passes :=
    verdict_eq_true_iff.trans (h.reasons_eq_nil_iff hRanked)
  fails := by
    rw [verdict_eq_false_iff, h.reasons_eq_nil_iff hRanked,
      h.exists_reasons_iff hRanked]
    constructor
    · rintro ⟨hReportable, hMore⟩
      have hLess := Int.not_le.mp hMore
      exact ⟨hLess, hReportable hLess⟩
    · rintro ⟨hLess, hReportable⟩
      exact ⟨fun _ => hReportable, Int.not_le.mpr hLess⟩
  stops := by
    have hStops :
        verdict r g =
            .error (.setting (.numeral .tooLargeToWrite)) ↔
          ∃ e, verdict r g = .error e := by
      refine ⟨fun hError => ⟨_, hError⟩, ?_⟩
      rintro ⟨e, hError⟩
      have hReasons := map_eq_error_iff.mp hError
      rw [hError,
        eq_tooLargeToWrite_of_reasons hRanked h.isUsual hReasons]
    rw [hStops, exists_verdict_error_iff,
      h.exists_reasons_iff hRanked, Classical.not_imp]
    rfl

/- What a gate may limit. -/
inductive Limit where
| violations
| warnings
| errors

namespace Limit

/- The gate that has an integer as this limit and no other. -/
def gate : Limit → Int → GateConfig
  | violations, m => { maxViolations := .integer m }
  | warnings, m => { maxWarning := .integer m }
  | errors, m => { maxError := .integer m }

/- The count of a result that is limited. -/
def countIn (r : ScanResult) : Limit → Nat
  | violations => r.violations.length
  | warnings => r.count .warning
  | errors => r.count .error

/- The number of a tally that is limited. -/
def numberIn (t : Report.Tally) : Limit → Nat
  | violations => t.total
  | warnings => t.warnings
  | errors => t.errors

/- Such a gate limits the count and nothing else. -/
theorem limitsOnly_gate
    (r : ScanResult)
    (l : Limit)
    (m : Int) :
    LimitsOnly r (l.gate m) (.integer m) (l.countIn r) where
  failOn := by cases l <;> rfl
  given := by cases l <;> simp [counted, gate, countIn]
  alone := by cases l <;> simp [counted, gate, countIn]

end Limit

end Gate

------------------------------------------------------------
-- Agreement
------------------------------------------------------------

namespace Report

/- A gate limits the numbers of the tally of a result. -/
theorem numberIn_tallyOf
    (r : ScanResult)
    (l : Gate.Limit) :
    l.numberIn (tallyOf r) = l.countIn r := by
  cases l <;> rfl

/- The totals of a result are told where they can be written. -/
theorem summary_eq_line
    {r : ScanResult}
    (h : r.IsSummable) :
    summary r = .ok (tallyOf r).line := by
  unfold summary
  rw [Numeral.write_of_isWritable h.filesScanned,
    Numeral.write_of_isWritable h.total,
    Numeral.write_of_isWritable
      (isWritable_count h.total .warning),
    Numeral.write_of_isWritable (isWritable_count h.total .error)]
  rfl

/- The summary tells a tally as far as it can be written. -/
theorem isToldBy_summary (r : ScanResult) :
    (tallyOf r).IsToldBy (summary r) := by
  by_cases h : (tallyOf r).IsSummable
  · have hSummary : summary r = .ok (tallyOf r).line :=
      summary_eq_line ⟨h.1, h.2⟩
    exact ⟨iff_of_true hSummary h, by simp [hSummary, h]⟩
  · have hSummary : summary r = .error .tooLargeToWrite :=
      summary_of_not_isSummable fun hFew =>
        h ⟨hFew.filesScanned, hFew.total⟩
    exact ⟨by simp [hSummary, h], iff_of_true hSummary h⟩

/-
  All published counts agree.  The numbers of the JSON report
  add up along the violations that it lists, the summary tells
  the same totals as far as they can be written, the SARIF log
  has a result for each listed violation in turn, and a gate
  with one integer as its limit judges the number it limits.
-/
theorem counts_agree
    {r : ScanResult}
    (hRanked : r.IsRanked) :
    ∃ (t : Tally) (results : List Json.Value),
      t.IsPublishedIn (jsonValue r) ∧ t.AddsUp ∧
        t.total = r.violations.length ∧
        t.IsToldBy (summary r) ∧
        (sarifValue r).at? resultsSteps =
          some (.array results) ∧
        results.Forall₂ TellsOf t.listed ∧
        ∀ (l : Gate.Limit) (m : Int),
          Gate.Judges (Gate.verdict r (l.gate m)) m
            (l.numberIn t) := by
  refine
    ⟨tallyOf r, r.violations.map sarifResult,
      isPublishedIn_tallyOf r, addsUp_tallyOf hRanked, rfl,
      isToldBy_summary r, rfl, forall₂_tellsOf r, ?_⟩
  intro l m
  rw [numberIn_tallyOf]
  exact (l.limitsOnly_gate r m).judges hRanked

/- A violation of a rule at the start of a file. -/
def violationIn
    (path ruleId : String)
    (severity : Severity) : Violation :=
  { ruleId := ruleId
    title := "Title"
    severity := severity
    message := "Message."
    location :=
      { path := path
        offset := 0
        line := 1
        column := 1 } }

/- Two warnings and an error, of two rules in two files. -/
def mixedResult : ScanResult :=
  { violations :=
      [violationIn "b.c" "second" .warning,
        violationIn "a.c" "first" .error,
        violationIn "b.c" "second" .warning]
    filesScanned := 3 }

/- It has severities with ranks. -/
theorem isRanked_mixedResult : mixedResult.IsRanked := by
  simp [ScanResult.IsRanked, Severity.IsRanked, mixedResult,
    violationIn]

/- Its counts, and gates at a limit for the error and below it. -/
theorem counts_agree_mixedResult :
    mixedResult.IsRanked ∧
      ∃ (t : Tally) (results : List Json.Value),
        t.IsPublishedIn (jsonValue mixedResult) ∧ t.AddsUp ∧
          t.files = 2 ∧ t.total = 3 ∧ t.warnings = 2 ∧
          t.errors = 1 ∧
          summary mixedResult =
            .ok "[summary] files=3 violations=3 warning=2 error=1" ∧
          (sarifValue mixedResult).at? resultsSteps =
            some (.array results) ∧
          results.Forall₂ TellsOf t.listed ∧
          Gate.verdict mixedResult { maxError := .integer 1 } =
            .ok true ∧
          Gate.verdict mixedResult { maxError := .integer 0 } =
            .ok false := by
  rcases counts_agree isRanked_mixedResult with
    ⟨t, results, hPublished, hAdds, _, hTold, hResults, hTells,
      hGates⟩
  cases hPublished.unique (isPublishedIn_tallyOf mixedResult)
  have hSummable : (tallyOf mixedResult).IsSummable :=
    ⟨by decide +kernel, by decide +kernel⟩
  have hLess : (0 : Int) < (tallyOf mixedResult).errors := by
    decide
  refine
    ⟨isRanked_mixedResult, _, results, hPublished, hAdds,
      by decide, rfl, by decide, by decide,
      hTold.tells.mpr hSummable, hResults, hTells, ?_, ?_⟩
  · exact (hGates .errors 1).passes.mpr (by decide)
  · exact
      (hGates .errors 0).fails.mpr
        ⟨hLess, Numeral.isWritable_zero⟩

/- A limit that is too long to be written, below any count. -/
def longLimit : Int :=
  -10 ^ Numeral.digitLimit

/-
  Two warnings exceed a limit below zero, but where the limit
  is too long to be written, no verdict is given.  Nor is a
  summary, where the number of files is as long.
-/
theorem verdict_stops_at_longLimit :
    mixedResult.IsRanked ∧
      longLimit < mixedResult.count .warning ∧
      Gate.verdict mixedResult
          { maxWarning := .integer longLimit } =
        .error (.setting (.numeral .tooLargeToWrite)) ∧
      Gate.verdict mixedResult
          { maxWarning := .integer longLimit } ≠
        .ok false ∧
      summary { mixedResult with filesScanned := -longLimit } =
        .error .tooLargeToWrite := by
  have hLong : ¬ Numeral.IsWritable longLimit := by
    unfold longLimit
    rw [Numeral.isWritable_neg_iff]
    exact Numeral.not_isWritable_pow
  have hLess : longLimit < mixedResult.count .warning := by
    have hPower : (0 : Int) < 10 ^ Numeral.digitLimit :=
      Int.pow_pos (by decide)
    unfold longLimit
    omega
  have hStops :=
    ((Gate.Limit.warnings.limitsOnly_gate mixedResult
      longLimit).judges isRanked_mixedResult).stops.mpr
      ⟨hLess, hLong⟩
  refine
    ⟨isRanked_mixedResult, hLess, hStops, ?_,
      summary_of_not_isSummable ?_⟩
  · intro hFails
    cases hStops.symm.trans hFails
  · intro hFew
    exact hLong (Numeral.isWritable_neg_iff.mp hFew.filesScanned)

end Report

end CommentLint
