import CommentLint.Proofs.Lexer.CommentLines
import CommentLint.Proofs.Rule.GluedComments
import CommentLint.Rule.Catalog

/-
  The order of violations in a file.

  There is one rule, and it flags at most one offset in each
  comment.  So the violations of a file stand in different
  lines, one after another, and sorting them moves none.

  Key definitions include:
    * `Violation.ComesFrom`
    * `InFileOrder`

  Key results include:
    * `Selection.rules_of_build`
    * `CommentSpacing.violations_inFileOrder`
    * `lint_inFileOrder`
-/

namespace CommentLint

------------------------------------------------------------
-- Rules of a Selection
------------------------------------------------------------

namespace Selection

/- A selection changes nothing of a rule but its severity. -/
theorem exists_severity_of_atSeverity
    {sel : Selection}
    {severity : Severity}
    {r : Rule}
    (h : sel.atSeverity (CommentSpacing.rule severity) = .ok r) :
    ∃ level, r = CommentSpacing.rule level := by
  unfold atSeverity at h
  split at h
  · cases h
    exact ⟨severity, rfl⟩
  · cases h
    exact ⟨severity, rfl⟩
  · rename_i setting _ _
    cases hLevel : severityOf setting with
    | error e =>
        rw [hLevel] at h
        cases h
    | ok level =>
        rw [hLevel] at h
        cases h
        exact ⟨level, rfl⟩

/- A selection gives no rule, or the one there is. -/
theorem rules_of_build
    {sel : Selection}
    {rules : List Rule}
    (h : sel.build = .ok rules) :
    rules = [] ∨
      ∃ severity, rules = [CommentSpacing.rule severity] := by
  unfold build at h
  dsimp only at h
  split at h
  · cases h
  · split at h
    · cases h
    · unfold Catalog.rules at h
      rw [List.filter_cons] at h
      split at h
      · rw [List.filter_nil, List.mapM_cons, List.mapM_nil] at h
        cases hRule :
            sel.atSeverity (CommentSpacing.rule .warning) with
        | error e =>
            rw [hRule] at h
            cases h
        | ok r =>
            rw [hRule] at h
            cases h
            rcases exists_severity_of_atSeverity hRule with
              ⟨level, rfl⟩
            exact Or.inr ⟨level, rfl⟩
      · cases h
        exact Or.inl rfl

end Selection

------------------------------------------------------------
-- Spans and Lines of a File
------------------------------------------------------------

/- The spans of a file that gives none are those of a run. -/
theorem SourceFile.scans_ofBytes
    (data : Bytes)
    (path : String)
    (dialect? : Option Dialect) :
    Lexer.Scans
      (ofBytes data path none dialect?).dialect
      (ofBytes data path none dialect?).data 0
      (ofBytes data path none dialect?).spans :=
  Lexer.scans_tokenize _ data

/- The line of an offset follows the line feeds before it. -/
theorem SourceFile.location_line
    (f : SourceFile)
    {offset : Int}
    (h : 0 ≤ offset) :
    (f.location offset).line =
      (Lexer.lineFeedsBefore f.data offset.toNat : Nat) + 1 := by
  rcases Int.eq_ofNat_of_zero_le h with ⟨n, rfl⟩
  rw [location_natCast]
  rfl

------------------------------------------------------------
-- Violations and Their Comments
------------------------------------------------------------

/- Line comments are of two kinds. -/
theorem SpanKind.isLineComment_iff
    {kind : SpanKind} :
    kind.isLineComment = true ↔
      kind = .comment ∨ kind = .docComment := by
  simp [isLineComment]

/-
  A violation comes from a comment: the rule flags its byte
  there, the byte is one of the comment, and the line is the
  one in which the comment starts.
-/
structure Violation.ComesFrom
    (v : Violation)
    (f : SourceFile)
    (s : Span) : Prop where
  comment : s.kind = .comment ∨ s.kind = .docComment
  flagged :
    CommentSpacing.flagged? f s = some v.location.offset
  lower : s.offset ≤ v.location.offset
  upper : v.location.offset < s.stop
  line : v.location.line = (f.location s.offset).line

/-
  Violations in file order: by offset and by line, each of
  them in the file and from a comment.
-/
structure InFileOrder
    (f : SourceFile)
    (found : List Violation) : Prop where
  offsets :
    found.Pairwise fun v w =>
      v.location.offset < w.location.offset
  lines :
    found.Pairwise fun v w => v.location.line < w.location.line
  inside :
    ∀ v ∈ found,
      0 ≤ v.location.offset ∧
        v.location.offset < f.data.length
  comes : ∀ v ∈ found, ∃ s ∈ f.spans, v.ComesFrom f s

/- What a violation comes from is a line comment of its file. -/
theorem Violation.ComesFrom.isLineComment
    {v : Violation}
    {f : SourceFile}
    {s : Span}
    {d : Dialect}
    {pos : Nat}
    (h : v.ComesFrom f s)
    (hScans : Lexer.Scans d f.data pos f.spans)
    (hMem : s ∈ f.spans) :
    Lexer.IsLineComment f.data s :=
  hScans.isLineComment hMem
    (SpanKind.isLineComment_iff.mpr h.comment)

/- No violations are in order. -/
theorem InFileOrder.nil (f : SourceFile) :
    InFileOrder f [] where
  offsets := List.Pairwise.nil
  lines := List.Pairwise.nil
  inside := by simp
  comes := by simp

/- Violations in file order are sorted. -/
theorem InFileOrder.mergeSort_eq
    {f : SourceFile}
    {found : List Violation}
    (h : InFileOrder f found) :
    found.mergeSort Violation.leInFile = found := by
  apply List.mergeSort_of_pairwise
  apply h.offsets.imp
  intro v w hLt
  unfold Violation.leInFile
  rw [decide_eq_true hLt, Bool.true_or]

namespace CommentSpacing

variable {f : SourceFile}
variable {s : Span}
variable {offset : Int}

/- The rule flags a byte of the comment. -/
theorem covers_of_flagged?
    (h : flagged? f s = some offset) :
    0 ≤ s.offset ∧ s.offset ≤ offset ∧ offset < s.stop ∧
      s.stop ≤ f.data.length := by
  rcases flagged?_eq_some_iff.mp h with
    ⟨_, text, g, hReads, hFind, rfl⟩
  rcases Glued.of_find?_eq_some hFind with
    ⟨c, t, hText, _⟩
  have hOffset := hReads.offset_nonneg
  have hLength := hReads.length_nonneg
  have hStop := hReads.stop_le
  have hBytes := congrArg List.length hReads.bytes
  have hPos := c.utf8Size_pos
  rw [hText, Utf8.encode_append, Utf8.encode_cons,
    List.length_append, List.length_append,
    length_encode_slashes, String.length_utf8EncodeChar,
    List.length_take] at hBytes
  refine ⟨hOffset, by omega, ?_, hStop⟩
  unfold Span.stop
  omega

/- A violation comes from the comment in which it is flagged. -/
theorem comesFrom_of_flagged?
    {d : Dialect}
    {pos : Nat}
    (severity : Severity)
    (hScans : Lexer.Scans d f.data pos f.spans)
    (hMem : s ∈ f.spans)
    (h : flagged? f s = some offset) :
    ((rule severity).violationAt f offset).ComesFrom f s := by
  rcases covers_of_flagged? h with ⟨hFrom, hLow, hHigh, _⟩
  have hKind := (flagged?_eq_some_iff.mp h).1
  have hLine := SpanKind.isLineComment_iff.mpr hKind
  have hOffset :
      ((rule severity).violationAt f offset).location.offset =
        offset :=
    SourceFile.location_offset f offset
  constructor
  case comment => exact hKind
  case flagged => rwa [hOffset]
  case lower => rwa [hOffset]
  case upper => rwa [hOffset]
  case line =>
    have hCovers : s.Covers offset.toNat := by
      unfold Span.Covers
      omega
    change (f.location offset).line = _
    rw [f.location_line (by omega), f.location_line hFrom,
      (hScans.isLineComment hMem hLine).lineFeedsBefore_eq
        hCovers]

/- The violations of the rule in the spans of a run are in order. -/
theorem violations_inFileOrder
    {d : Dialect}
    {pos : Nat}
    (severity : Severity)
    (hScans : Lexer.Scans d f.data pos f.spans) :
    InFileOrder f ((rule severity).violations f) := by
  have hComes :
      ∀ v ∈ (rule severity).violations f,
        ∃ s ∈ f.spans, v.ComesFrom f s := by
    intro v hMem
    rw [violations_eq_filterMap, List.mem_filterMap] at hMem
    rcases hMem with ⟨s, hSpan, hValue⟩
    rcases Option.map_eq_some_iff.mp hValue with
      ⟨offset, hFlagged, rfl⟩
    exact
      ⟨s, hSpan,
        comesFrom_of_flagged? severity hScans hSpan hFlagged⟩
  -- What holds of two spans in a row is carried over to their
  -- violations.
  have hOrder :
      ∀ {R : Violation → Violation → Prop},
        (∀ v w s t,
          s ∈ f.spans → t ∈ f.spans → s.stop ≤ t.offset →
            v.ComesFrom f s → w.ComesFrom f t → R v w) →
        ((rule severity).violations f).Pairwise R := by
    intro R hRelated
    rw [violations_eq_filterMap, List.pairwise_filterMap]
    apply hScans.disjoint.imp_of_mem
    intro s t hMem hMem' hApart v hValue w hValue'
    rcases Option.map_eq_some_iff.mp hValue with
      ⟨offset, hFlagged, rfl⟩
    rcases Option.map_eq_some_iff.mp hValue' with
      ⟨offset', hFlagged', rfl⟩
    exact
      hRelated _ _ s t hMem hMem' hApart
        (comesFrom_of_flagged? severity hScans hMem hFlagged)
        (comesFrom_of_flagged? severity hScans hMem' hFlagged')
  constructor
  case offsets =>
    apply hOrder
    intro v w s t _ _ hApart hFrom hFrom'
    have hUpper := hFrom.upper
    have hLower := hFrom'.lower
    omega
  case lines =>
    apply hOrder
    intro v w s t hMem hMem' hApart hFrom hFrom'
    have hIs := hFrom.isLineComment hScans hMem
    have hIs' := hFrom'.isLineComment hScans hMem'
    rw [hFrom.line, hFrom'.line,
      f.location_line hIs.offset_nonneg,
      f.location_line hIs'.offset_nonneg]
    have hLt := hIs.lineFeedsBefore_lt hIs' hApart
    omega
  case inside =>
    intro v hMem
    rcases hComes v hMem with ⟨s, _, hFrom⟩
    rcases covers_of_flagged? hFrom.flagged with
      ⟨hLow, hLe, hLt, hStop⟩
    omega
  case comes => exact hComes

end CommentSpacing

------------------------------------------------------------
-- Linting
------------------------------------------------------------

section Linting

variable {f : SourceFile}
variable {d : Dialect}
variable {pos : Nat}
variable {sel : Selection}
variable {rules : List Rule}

/- The violations of a selection's rules are in file order. -/
theorem flatMap_violations_inFileOrder
    (hScans : Lexer.Scans d f.data pos f.spans)
    (hRules : sel.build = .ok rules) :
    InFileOrder f (rules.flatMap fun r => r.violations f) := by
  rcases sel.rules_of_build hRules with
    rfl | ⟨severity, rfl⟩
  · exact InFileOrder.nil f
  · rw [List.flatMap_singleton]
    exact CommentSpacing.violations_inFileOrder severity hScans

/- Linting leaves the violations where the rules found them. -/
theorem lint_eq_flatMap
    (hScans : Lexer.Scans d f.data pos f.spans)
    (hRules : sel.build = .ok rules) :
    lint rules f = rules.flatMap fun r => r.violations f :=
  (flatMap_violations_inFileOrder hScans hRules).mergeSort_eq

/-
  The violations in source are in file order.  They are those
  of the rules one after another, which sorting leaves alone.
-/
theorem lint_inFileOrder
    (data : Bytes)
    (path : String)
    (hRules : sel.build = .ok rules) :
    InFileOrder (SourceFile.read data path)
        (lint rules (SourceFile.read data path)) ∧
      lint rules (SourceFile.read data path) =
        rules.flatMap fun r =>
          r.violations (SourceFile.read data path) := by
  unfold SourceFile.read
  have hScans := SourceFile.scans_ofBytes data path none
  have hSame := lint_eq_flatMap hScans hRules
  refine ⟨?_, hSame⟩
  rw [hSame]
  exact flatMap_violations_inFileOrder hScans hRules

/- Source of two lines, linted by the rules that run by default. -/
theorem lint_inFileOrder_two_lines :
    Selection.build {} = .ok Catalog.rules ∧
      InFileOrder
          (SourceFile.read [47, 47, 120, 10, 47, 47, 121] "a.c")
          (lint Catalog.rules
            (SourceFile.read [47, 47, 120, 10, 47, 47, 121]
              "a.c")) ∧
        lint Catalog.rules
            (SourceFile.read [47, 47, 120, 10, 47, 47, 121]
              "a.c") =
          Catalog.rules.flatMap fun r =>
            r.violations
              (SourceFile.read [47, 47, 120, 10, 47, 47, 121]
                "a.c") :=
  ⟨rfl, @lint_inFileOrder {} Catalog.rules _ _ rfl⟩

end Linting

end CommentLint
