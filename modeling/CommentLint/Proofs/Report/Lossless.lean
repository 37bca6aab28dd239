import CommentLint.Proofs.Json.Encoding
import CommentLint.Proofs.Report.WrittenNumbers
import Mathlib.Data.List.Forall2

/-
  Reports that lose nothing.

  The reports in JSON and in SARIF are texts of their values,
  and there is a report unless a number in it has too many
  digits.  The value of a JSON report holds every violation
  with all of its fields, so results with the same report have
  the same violations.

  Key definitions include:
    * `Violation.SameFields`

  Key results include:
    * `Report.isExact_jsonValue`
    * `Report.isExact_sarifValue`
    * `Report.sameFields_of_jsonValue`
    * `Report.render_lossless`
-/

namespace CommentLint

open Json

/-
  A violation with the fields of another one.  The field of a
  severity is its label.
-/
structure Violation.SameFields (v w : Violation) : Prop where
  ruleId : v.ruleId = w.ruleId
  title : v.title = w.title
  severity : v.severity.label = w.severity.label
  message : v.message = w.message
  location : v.location = w.location

namespace Report

------------------------------------------------------------
-- Values of reports
------------------------------------------------------------

/- The value of a violation is exact. -/
theorem isExact_violationValue (v : Violation) :
    (violationValue v).IsExact := by
  simp [violationValue]

/- The SARIF result of a violation is exact. -/
theorem isExact_sarifResult (v : Violation) :
    (sarifResult v).IsExact := by
  simp [sarifResult]

/- Counts name each string once. -/
theorem nodup_counts (items : List String) :
    ((counts items).map Prod.fst).Nodup := by
  have hNames :
      (counts items).map Prod.fst = Selection.sortedSet items := by
    simp [counts, Function.comp_def]
  rw [hNames]
  exact
    (List.mergeSort_perm _ _).nodup_iff.mpr (nodup_distinct items)

/- The value of counts is exact. -/
theorem isExact_counts (items : List String) :
    (Value.object
      ((counts items).map fun p =>
        (p.1, countValue p.2))).IsExact := by
  refine .object ?_ ?_
  · simpa [Function.comp_def] using nodup_counts items
  · intro f hf
    rcases List.mem_map.mp hf with ⟨_, _, rfl⟩
    exact .integer _

/- The value of a JSON report is exact. -/
theorem isExact_jsonValue (r : ScanResult) :
    (jsonValue r).IsExact := by
  have hViolations :
      (Value.array (r.violations.map violationValue)).IsExact := by
    refine .array fun w hw => ?_
    rcases List.mem_map.mp hw with ⟨v, _, rfl⟩
    exact isExact_violationValue v
  refine .object (by simp) ?_
  simp only [List.forall_mem_cons]
  exact
    ⟨.integer _, .integer _, .integer _, by simp [countValue],
      isExact_counts _, hViolations, by simp⟩

/- The value of a SARIF report is exact. -/
theorem isExact_sarifValue (r : ScanResult) :
    (sarifValue r).IsExact := by
  simp [sarifValue, isExact_sarifResult]

------------------------------------------------------------
-- Fields of reports
------------------------------------------------------------

/- The value of a violation tells its fields. -/
theorem sameFields_of_violationValue
    {v w : Violation}
    (hSame : violationValue v = violationValue w) :
    v.SameFields w := by
  rcases v with ⟨_, _, _, _, ⟨_, _, _, _⟩⟩
  rcases w with ⟨_, _, _, _, ⟨_, _, _, _⟩⟩
  simp only [violationValue, Value.object.injEq, List.cons.injEq,
    Prod.mk.injEq, Value.text.injEq, Value.integer.injEq,
    true_and, and_true] at hSame
  rcases hSame with ⟨rfl, rfl, hSeverity, rfl, rfl, rfl, rfl, rfl⟩
  exact ⟨rfl, rfl, hSeverity, rfl, rfl⟩

/- The value of a report tells its violations. -/
theorem sameFields_of_jsonValue
    {r r' : ScanResult}
    (hSame : jsonValue r = jsonValue r') :
    r.filesScanned = r'.filesScanned ∧
      r.violations.Forall₂ Violation.SameFields r'.violations := by
  simp only [jsonValue, Value.object.injEq, List.cons.injEq,
    Prod.mk.injEq, Value.array.injEq, Value.integer.injEq,
    true_and, and_true] at hSame
  rcases hSame with ⟨hFiles, _, _, _, _, hViolations⟩
  rw [← List.forall₂_eq_eq_eq, List.forall₂_map_left_iff,
    List.forall₂_map_right_iff] at hViolations
  exact
    ⟨hFiles,
      hViolations.imp fun _ _ => sameFields_of_violationValue⟩

------------------------------------------------------------
-- Texts of reports
------------------------------------------------------------

/- The JSON report is written when all numbers can be. -/
theorem writes_json (r : ScanResult) :
    Writes (render .json r) r.IsWritable (jsonValue r) := by
  have hWrites := Value.writes_indented (isExact_jsonValue r)
  rwa [isWritable_jsonValue_iff] at hWrites

/- The SARIF report is written when those of locations can be. -/
theorem writes_sarif (r : ScanResult) :
    Writes (render .sarif r)
      (∀ v ∈ r.violations, v.location.IsWritable)
      (sarifValue r) := by
  have hWrites := Value.writes_indented (isExact_sarifValue r)
  rwa [isWritable_sarifValue_iff] at hWrites

/-
  The JSON and the SARIF report of a result are plain texts
  that denote their values, in which no object names a field
  twice.  There is a report just when the numbers that it
  gives have not too many digits.  Results with the same JSON
  report have the same violations in the same order, field by
  field.
-/
theorem render_lossless (r : ScanResult) :
    (Writes (render .json r) r.IsWritable (jsonValue r) ∧
      (jsonValue r).IsExact) ∧
      (Writes (render .sarif r)
          (∀ v ∈ r.violations, v.location.IsWritable)
          (sarifValue r) ∧
        (sarifValue r).IsExact) ∧
      ∀ (r' : ScanResult) (s : String),
        render .json r = .ok s → render .json r' = .ok s →
          r.filesScanned = r'.filesScanned ∧
            r.violations.Forall₂ Violation.SameFields
              r'.violations := by
  refine
    ⟨⟨writes_json r, isExact_jsonValue r⟩,
      ⟨writes_sarif r, isExact_sarifValue r⟩, ?_⟩
  intro r' s hText hText'
  apply sameFields_of_jsonValue
  have hParsed := ((writes_json r).encodes_of_eq_ok hText).parse
  rw [((writes_json r').encodes_of_eq_ok hText').parse]
    at hParsed
  exact (Option.some.inj hParsed).symm

/- A violation with characters past U+FFFF, of a severity. -/
def astralViolation (s : Severity) : Violation :=
  { ruleId := "todo"
    title := "Title"
    severity := s
    message := "\\\t😀"
    location :=
      { path := "src/\"ä\".rs"
        offset := -1
        line := 18446744073709551616
        column := 0 } }

/- A result of that violation, with numbers past 64 bits. -/
def astralResult (s : Severity) : ScanResult :=
  { violations := [astralViolation s]
    filesScanned := -18446744073709551617 }

/- Its numbers have not too many digits. -/
theorem isWritable_astralResult :
    (astralResult .warning).IsWritable where
  summable := ⟨by decide +kernel, by decide +kernel⟩
  locations := by
    intro v hMem
    rw [List.mem_singleton.mp hMem]
    exact
      ⟨by decide +kernel, by decide +kernel, by decide +kernel⟩

/-
  Both reports are read back to their values, and the report
  is that of the same severity read from its label.
-/
theorem render_lossless_astral :
    ∃ s t,
      render .json (astralResult .warning) = .ok s ∧
        parse? s = some (jsonValue (astralResult .warning)) ∧
        render .sarif (astralResult .warning) = .ok t ∧
        parse? t = some (sarifValue (astralResult .warning)) ∧
        render .json (astralResult (Severity.ofLabel "warning")) =
          .ok s ∧
        (astralResult .warning).violations.Forall₂
          Violation.SameFields
          (astralResult (Severity.ofLabel "warning")).violations := by
  have hFits := isWritable_astralResult
  rcases render_lossless (astralResult .warning) with
    ⟨⟨hJson, _⟩, ⟨hSarif, _⟩, hSame⟩
  rcases hJson.encodes hFits with ⟨s, hText, hEncodes⟩
  rcases hSarif.encodes hFits.locations with
    ⟨t, hLog, hEncodes'⟩
  have hLabel : Severity.ofLabel "warning" = .warning := by decide
  rw [hLabel]
  exact
    ⟨s, t, hText, hEncodes.parse, hLog, hEncodes'.parse, hText,
      (hSame _ s hText hText).2⟩

/- A result of one violation, at an offset of too many digits. -/
def distantResult : ScanResult :=
  { violations :=
      [
        { ruleId := "todo"
          title := "Title"
          severity := .warning
          message := "Message."
          location :=
            { path := "a.c"
              offset := 10 ^ Numeral.digitLimit
              line := 1
              column := 1 } }
      ]
    filesScanned := 1 }

/- It has no report in JSON and none in SARIF. -/
theorem render_stops_at_long_number :
    render .json distantResult = .error .tooLargeToWrite ∧
      render .sarif distantResult = .error .tooLargeToWrite ∧
      ¬ ∃ s, render .json distantResult = .ok s := by
  have hMany :
      ¬ ∀ v ∈ distantResult.violations,
        v.location.IsWritable := by
    intro h
    exact
      Numeral.not_isWritable_pow (h _ List.mem_cons_self).offset
  have hJson :
      render .json distantResult = .error .tooLargeToWrite :=
    (writes_json distantResult).fails fun h => hMany h.locations
  refine ⟨hJson, (writes_sarif distantResult).fails hMany, ?_⟩
  rw [hJson]
  rintro ⟨s, ⟨⟩⟩

end Report

end CommentLint
