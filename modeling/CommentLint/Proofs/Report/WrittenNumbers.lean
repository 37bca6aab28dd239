import CommentLint.Proofs.Json.Writing
import CommentLint.Proofs.Setting.Distinct
import CommentLint.Report
import Mathlib.Data.List.Perm.Subperm

/-
  Reports whose numbers can be written.

  A report gives numbers of its own only where they count
  violations, and no such count exceeds their number.  So a
  report is rendered when the number of files, the number of
  violations and the numbers of their locations have not too
  many digits, as far as its format gives them.

  Key definitions include:
    * `Location.IsWritable`
    * `ScanResult.IsSummable`
    * `ScanResult.IsWritable`
    * `ReportFormat.Fits`

  Key results include:
    * `Report.isWritable_jsonValue_iff`
    * `Report.isWritable_sarifValue_iff`
    * `Report.exists_render_iff`
    * `Report.exists_renderAs`
    * `Report.exists_summary_iff`
-/

namespace CommentLint

open Json

------------------------------------------------------------
-- Numbers of Results
------------------------------------------------------------

/- A location whose numbers have not too many digits. -/
structure Location.IsWritable (l : Location) : Prop where
  offset : Numeral.IsWritable l.offset
  line : Numeral.IsWritable l.line
  column : Numeral.IsWritable l.column

/- A result whose totals have not too many digits. -/
structure ScanResult.IsSummable (r : ScanResult) : Prop where
  filesScanned : Numeral.IsWritable r.filesScanned
  total : Numeral.IsWritable r.violations.length

/- A result whose numbers have not too many digits. -/
structure ScanResult.IsWritable (r : ScanResult) : Prop where
  summable : r.IsSummable
  locations : ∀ v ∈ r.violations, v.location.IsWritable

/- The numbers that a format gives have not too many digits. -/
def ReportFormat.Fits
    (r : ScanResult) : ReportFormat → Prop
  | .text =>
      ∀ v ∈ r.violations, ∀ n ∈ Report.lineNumbers v,
        Numeral.IsWritable n
  | .json => r.IsWritable
  | .sarif => ∀ v ∈ r.violations, v.location.IsWritable

/- Where all numbers can be written, those of a format can. -/
theorem ScanResult.IsWritable.fits
    {r : ScanResult}
    (h : r.IsWritable)
    (f : ReportFormat) :
    f.Fits r := by
  cases f with
  | text =>
      intro v hMem n hNumber
      have hLocation := h.locations v hMem
      simp only [Report.lineNumbers, List.mem_cons,
        List.not_mem_nil, or_false] at hNumber
      rcases hNumber with rfl | rfl
      · exact hLocation.line
      · exact hLocation.column
  | json => exact h
  | sarif => exact h.locations

namespace Report

variable {r : ScanResult}

------------------------------------------------------------
-- Counts
------------------------------------------------------------

/- Each string has its count. -/
theorem eq_count_of_mem_counts
    {items : List String}
    {p : String × Nat}
    (h : p ∈ counts items) :
    p.2 = items.count p.1 := by
  rcases List.mem_map.mp h with ⟨s, _, rfl⟩
  rfl

/- There are no more files with violations than violations. -/
theorem filesWithViolations_le (r : ScanResult) :
    filesWithViolations r ≤ r.violations.length := by
  have hSub :
      (distinct (r.violations.map fun v => v.location.path)) ⊆
        r.violations.map fun v => v.location.path :=
    fun _ hMem => mem_distinct_iff.mp hMem
  have hLe :=
    (List.subperm_of_subset (nodup_distinct _) hSub).length_le
  rwa [List.length_map] at hLe

/- A number of violations is written where their number is. -/
theorem isWritable_countValue
    {n : Nat}
    (hTotal : Numeral.IsWritable r.violations.length)
    (hLe : n ≤ r.violations.length) :
    (countValue n).IsWritable := by
  rw [countValue, Value.isWritable_integer_iff]
  exact hTotal.of_natAbs_le hLe

------------------------------------------------------------
-- Values of Reports
------------------------------------------------------------

/- A listed violation is as writable as its location. -/
theorem isWritable_violationValue_iff
    {v : Violation} :
    (violationValue v).IsWritable ↔ v.location.IsWritable := by
  simp only [violationValue, Value.isWritable_object_iff,
    List.forall_mem_cons, List.not_mem_nil, IsEmpty.forall_iff,
    implies_true, Value.isWritable_text,
    Value.isWritable_integer_iff, true_and, and_true]
  constructor
  · rintro ⟨hOffset, hLine, hColumn⟩
    exact ⟨hOffset, hLine, hColumn⟩
  · rintro ⟨hOffset, hLine, hColumn⟩
    exact ⟨hOffset, hLine, hColumn⟩

/- So is a SARIF result. -/
theorem isWritable_sarifResult_iff
    {v : Violation} :
    (sarifResult v).IsWritable ↔ v.location.IsWritable := by
  simp only [sarifResult, Value.isWritable_object_iff,
    Value.isWritable_array_iff, List.forall_mem_cons,
    List.not_mem_nil, IsEmpty.forall_iff, implies_true,
    Value.isWritable_text, Value.isWritable_integer_iff,
    true_and, and_true]
  constructor
  · rintro ⟨hLine, hColumn, hOffset⟩
    exact ⟨hOffset, hLine, hColumn⟩
  · rintro ⟨hOffset, hLine, hColumn⟩
    exact ⟨hLine, hColumn, hOffset⟩

/- The counts of rules are no larger than that of all violations. -/
theorem isWritable_ruleCounts
    (hTotal : Numeral.IsWritable r.violations.length) :
    (Value.object
      ((counts (r.violations.map fun v => v.ruleId)).map
        fun p => (p.1, countValue p.2))).IsWritable := by
  rw [Value.isWritable_object_iff]
  intro f hMem
  rcases List.mem_map.mp hMem with ⟨p, hCount, rfl⟩
  apply isWritable_countValue hTotal
  have hLe :=
    List.count_le_length (a := p.1)
      (l := r.violations.map fun v => v.ruleId)
  rwa [← eq_count_of_mem_counts hCount, List.length_map] at hLe

/- A JSON report is as writable as its result. -/
theorem isWritable_jsonValue_iff :
    (jsonValue r).IsWritable ↔ r.IsWritable := by
  simp only [jsonValue, Value.isWritable_object_iff,
    List.forall_mem_cons, List.not_mem_nil, IsEmpty.forall_iff,
    implies_true, and_true, Value.isWritable_integer_iff,
    Value.isWritable_array_iff, List.forall_mem_map,
    isWritable_violationValue_iff]
  constructor
  · rintro ⟨hFiles, _, hTotal, _, _, hLocations⟩
    rw [countValue, Value.isWritable_integer_iff] at hTotal
    exact ⟨⟨hFiles, hTotal⟩, hLocations⟩
  · rintro ⟨⟨hFiles, hTotal⟩, hLocations⟩
    have hCount (s : Severity) :
        (countValue (r.count s)).IsWritable :=
      isWritable_countValue hTotal List.countP_le_length
    have hRules := isWritable_ruleCounts hTotal
    rw [Value.isWritable_object_iff, List.forall_mem_map] at hRules
    exact
      ⟨hFiles,
        isWritable_countValue hTotal (filesWithViolations_le r),
        isWritable_countValue hTotal le_rfl,
        ⟨hCount .warning, hCount .error⟩, hRules, hLocations⟩

/- A SARIF log is as writable as the locations in it. -/
theorem isWritable_sarifValue_iff :
    (sarifValue r).IsWritable ↔
      ∀ v ∈ r.violations, v.location.IsWritable := by
  simp only [sarifValue, Value.isWritable_object_iff,
    Value.isWritable_array_iff, List.forall_mem_cons,
    List.not_mem_nil, IsEmpty.forall_iff, implies_true,
    List.forall_mem_map, Value.isWritable_text,
    isWritable_sarifResult_iff, true_and, and_true]

------------------------------------------------------------
-- Reports
------------------------------------------------------------

/- A report is rendered when the numbers that it gives fit. -/
theorem exists_render_iff
    {f : ReportFormat} :
    (∃ s, render f r = .ok s) ↔ f.Fits r := by
  cases f with
  | text =>
      simp only [render, exists_map_iff, exists_mapM_iff,
        Numeral.exists_write_iff, List.mem_flatMap,
        ReportFormat.Fits]
      constructor
      · intro h v hMem n hNumber
        exact h n ⟨v, hMem, hNumber⟩
      · rintro h n ⟨v, hMem, hNumber⟩
        exact h v hMem n hNumber
  | json =>
      rw [render, Value.indented, exists_map_iff,
        Json.exists_render_iff]
      exact isWritable_jsonValue_iff
  | sarif =>
      rw [render, Value.indented, exists_map_iff,
        Json.exists_render_iff]
      exact isWritable_sarifValue_iff

/- A text report that is rendered has a line for each violation. -/
theorem render_text_eq_ok_iff
    {s : String} :
    render .text r = .ok s ↔
      ReportFormat.text.Fits r ∧ s = textForm r := by
  rw [← exists_render_iff, render, map_eq_ok_iff,
    exists_map_iff]
  constructor
  · rintro ⟨numerals, hNumerals, rfl⟩
    exact ⟨⟨numerals, hNumerals⟩, rfl⟩
  · rintro ⟨⟨numerals, hNumerals⟩, rfl⟩
    exact ⟨numerals, hNumerals, rfl⟩

/- A report is rendered in each of the formats there are. -/
theorem exists_renderAs
    {format : Setting}
    (hFormat : ∃ f ∈ reportFormats, format = .text f)
    (h : r.IsWritable) :
    ∃ s, renderAs format r = .ok s := by
  have hRender (f : ReportFormat) :
      ∃ s, (render f r).mapError Error.ofNumeral = .ok s := by
    simp only [mapError_eq_ok_iff]
    exact exists_render_iff.mpr (h.fits f)
  rcases hFormat with ⟨f, hMem, rfl⟩
  simp only [reportFormats, List.mem_cons, List.not_mem_nil,
    or_false] at hMem
  rcases hMem with rfl | rfl | rfl
  · exact hRender .text
  · exact hRender .json
  · exact hRender .sarif

------------------------------------------------------------
-- Summaries
------------------------------------------------------------

/- Violations of a severity are counted where all of them are. -/
theorem isWritable_count
    (hTotal : Numeral.IsWritable r.violations.length)
    (s : Severity) :
    Numeral.IsWritable (r.count s) :=
  hTotal.of_natAbs_le List.countP_le_length

/- A result is summed up when its totals can be written. -/
theorem exists_summary_iff :
    (∃ s, summary r = .ok s) ↔ r.IsSummable := by
  simp only [summary, exists_bind_iff, Numeral.exists_write_iff,
    pure_eq_ok_iff, exists_eq', and_true, exists_and_right]
  constructor
  · rintro ⟨hFiles, hTotal, _⟩
    exact ⟨hFiles, hTotal⟩
  · rintro ⟨hFiles, hTotal⟩
    exact
      ⟨hFiles, hTotal, isWritable_count hTotal .warning,
        isWritable_count hTotal .error⟩

/- Nothing but a long number keeps it from being summed up. -/
theorem summary_of_not_isSummable
    (h : ¬ r.IsSummable) :
    summary r = .error .tooLargeToWrite := by
  cases hSummary : summary r with
  | ok s => exact absurd (exists_summary_iff.mp ⟨s, hSummary⟩) h
  | error e =>
      simp only [summary, bind_eq_error_iff,
        Numeral.write_eq_error_iff] at hSummary
      rcases hSummary with
        ⟨_, rfl⟩ | ⟨_, _, ⟨_, rfl⟩ | ⟨_, _, ⟨_, rfl⟩ |
          ⟨_, _, ⟨_, rfl⟩ | ⟨_, _, hPure⟩⟩⟩⟩
      · rfl
      · rfl
      · rfl
      · rfl
      · cases hPure

end Report

end CommentLint
