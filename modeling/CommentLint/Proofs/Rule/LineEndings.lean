import CommentLint.Proofs.Lexer.LineEndings.Runs
import CommentLint.Proofs.Rule.FileOrder

/-
  Violations in source whose line feeds get carriage returns.

  The comments are the same ones at their places, and so are
  their texts, lines and columns.  So linting finds the same
  violations, as long as no text of one line hides the end of
  its line behind a backslash.

  Key definitions include:
    * `Violation.toPlace`
    * `SourceFile.WithReturns`
    * `Violation.Agrees`

  Key results include:
    * `SourceFile.WithReturns.location_place`
    * `SourceFile.WithReturns.flagged?_toPlace`
    * `lint_withReturns`
    * `lint_agrees_withReturns`
-/

namespace CommentLint

open Ascii

/- A violation at its place once the carriage returns are put in. -/
def Violation.toPlace
    (data : Bytes)
    (v : Violation) : Violation :=
  { v with
    location :=
      { v.location with
        offset := (place data v.location.offset.toNat : Nat) } }

/- The rule goes through the comments alone. -/
theorem CommentSpacing.violations_eq_comments
    (severity : Severity)
    (f : SourceFile) :
    (rule severity).violations f =
      (Span.comments f.spans).filterMap fun s =>
        (flagged? f s).map ((rule severity).violationAt f) := by
  rw [violations_eq_filterMap]
  unfold Span.comments
  rw [List.filterMap_filter]
  apply List.filterMap_congr
  intro s _
  by_cases hLine : s.kind.isLineComment = true
  · rw [if_pos hLine]
  · rw [if_neg hLine]
    unfold flagged?
    rw [if_neg hLine]
    rfl

------------------------------------------------------------
-- Files with Carriage Returns
------------------------------------------------------------

/-
  A file has the bytes of another one with carriage returns,
  and its comments at their places.
-/
structure SourceFile.WithReturns
    (f f' : SourceFile) : Prop where
  path : f'.path = f.path
  data : f'.data = withReturns f.data
  comments :
    Span.comments f'.spans =
      (Span.comments f.spans).map (Span.toPlace f.data)

namespace SourceFile.WithReturns

variable {f f' : SourceFile}
variable {s : Span}

/- A place has the line and the column of its offset. -/
theorem location_place
    (h : f.WithReturns f')
    (n : Nat) :
    f'.location (place f.data n : Nat) =
      { f.location n with offset := (place f.data n : Nat) } := by
  rw [location_natCast, location_natCast, h.data, h.path,
    take_place, count_withReturns, lastLine_withReturns]

/- The violation at a place is the one at its offset. -/
theorem violationAt_place
    (h : f.WithReturns f')
    (r : Rule)
    (n : Nat) :
    r.violationAt f' (place f.data n : Nat) =
      (r.violationAt f n).toPlace f.data := by
  unfold Rule.violationAt Violation.toPlace
  rw [h.location_place, location_offset, Int.toNat_natCast]

/- The bytes of a comment have their places in a row. -/
theorem place_add
    {n : Nat}
    (hLine : Lexer.IsLineComment f.data s)
    (hn : (n : Int) ≤ s.length)
    (hIn : s.stop ≤ f.data.length) :
    place f.data (s.offset.toNat + n) =
      place f.data s.offset.toNat + n := by
  have hOffset := hLine.offset_nonneg
  have hFeed :
      lineFeed ∉ (f.data.drop s.offset.toNat).take n := by
    intro hMem
    apply hLine.ends.not_mem_take
    exact
      List.take_subset_take_left _
        (show n ≤ s.length.toNat by omega) hMem
  unfold Span.stop at hIn
  rw [CommentLint.place_add, withReturns_eq_self hFeed,
    List.length_take_of_le]
  rw [List.length_drop]
  omega

/- The text of a comment is the one at its place. -/
theorem spanText?_toPlace
    (h : f.WithReturns f')
    (hLine : Lexer.IsLineComment f.data s)
    (hIn : s.stop ≤ f.data.length) :
    f'.spanText? (s.toPlace f.data) = f.spanText? s := by
  have hOffset := hLine.offset_nonneg
  have hLength := hLine.length_nonneg
  have hStop :
      place f.data s.offset.toNat + s.length.toNat ≤
        (withReturns f.data).length := by
    rw [ ← place_add hLine (by omega) hIn]
    exact place_le_length f.data _
  have hBytes :
      ((withReturns f.data).drop
            (place f.data s.offset.toNat)).take s.length.toNat =
        (f.data.drop s.offset.toNat).take s.length.toNat := by
    rw [drop_place]
    exact take_withReturns hLine.ends.not_mem_take
  unfold Span.stop at hIn
  unfold spanText? substring? Span.toPlace
  dsimp only
  rw [if_neg (by rw [h.data]; omega), if_neg (by omega),
    Int.toNat_natCast, h.data, hBytes]

/- The rule flags the place of what it flags in a comment. -/
theorem flagged?_toPlace
    (h : f.WithReturns f')
    (hLine : Lexer.IsLineComment f.data s)
    (hIn : s.stop ≤ f.data.length) :
    CommentSpacing.flagged? f' (s.toPlace f.data) =
      (CommentSpacing.flagged? f s).map fun offset =>
        ((place f.data offset.toNat : Nat) : Int) := by
  have hText := h.spanText?_toPlace hLine hIn
  have hFlagged :
      CommentSpacing.flagged? f s =
        (f.spanText? s).bind fun text =>
          (Glued.find? text).map fun g => s.offset + g.offset :=
    if_pos hLine.kind
  have hFlagged' :
      CommentSpacing.flagged? f' (s.toPlace f.data) =
        (f'.spanText? (s.toPlace f.data)).bind fun text =>
          (Glued.find? text).map fun g =>
            (s.toPlace f.data).offset + g.offset :=
    if_pos hLine.kind
  cases hSpan : f.spanText? s with
  | none => rw [hFlagged, hFlagged', hText, hSpan]; rfl
  | some text =>
      rw [hFlagged', hText, hSpan, Option.bind_some]
      rw [hSpan, Option.bind_some] at hFlagged
      cases hFind : Glued.find? text with
      | none =>
          rw [hFlagged, hFind]
          rfl
      | some g =>
          rw [hFind, Option.map_some] at hFlagged
          have hCovers := CommentSpacing.covers_of_flagged? hFlagged
          have hWidth : (g.offset : Int) ≤ s.length := by
            unfold Span.stop at hCovers
            omega
          have hOffset :
              (s.offset + g.offset).toNat =
                s.offset.toNat + g.offset := by
            omega
          rw [hFlagged, Option.map_some, Option.map_some, hOffset,
            place_add hLine hWidth hIn, Int.natCast_add]
          rfl

/- The violations of the rule are the same ones at their places. -/
theorem violations_eq
    {d : Dialect}
    {pos : Nat}
    (severity : Severity)
    (h : f.WithReturns f')
    (hScans : Lexer.Scans d f.data pos f.spans) :
    (CommentSpacing.rule severity).violations f' =
      ((CommentSpacing.rule severity).violations f).map
        (Violation.toPlace f.data) := by
  rw [CommentSpacing.violations_eq_comments,
    CommentSpacing.violations_eq_comments, h.comments,
    List.filterMap_map, List.map_filterMap]
  apply List.filterMap_congr
  intro s hMem
  rcases List.mem_filter.mp hMem with ⟨hSpan, hKind⟩
  have hLine := hScans.isLineComment hSpan hKind
  have hIn := (hScans.bounds hSpan).2.2
  rw [Function.comp_apply, h.flagged?_toPlace hLine hIn,
    Option.map_map, Option.map_map]
  cases hFlagged : CommentSpacing.flagged? f s with
  | none => rfl
  | some offset =>
      have hCovers := CommentSpacing.covers_of_flagged? hFlagged
      have hOffset : (offset.toNat : Int) = offset := by
        omega
      have hPlace :=
        h.violationAt_place (CommentSpacing.rule severity)
          offset.toNat
      rw [hOffset] at hPlace
      exact congrArg some hPlace

end SourceFile.WithReturns

------------------------------------------------------------
-- Linting
------------------------------------------------------------

/- Two violations agree in the rule, severity, line and column. -/
structure Violation.Agrees
    (v w : Violation) : Prop where
  ruleId : v.ruleId = w.ruleId
  severity : v.severity = w.severity
  line : v.location.line = w.location.line
  column : v.location.column = w.location.column

/- A violation agrees with itself at its place. -/
theorem Violation.agrees_toPlace
    (data : Bytes)
    (v : Violation) :
    v.Agrees (v.toPlace data) :=
  ⟨rfl, rfl, rfl, rfl⟩

section Linting

variable {data : Bytes}
variable {dialect? : Option Dialect}
variable {sel : Selection}
variable {rules : List Rule}

/- Source that keeps lines has its comments at their places. -/
theorem SourceFile.withReturns_ofBytes
    (path : String)
    (hReturn : carriageReturn ∉ data)
    (hKeeps :
      Lexer.KeepsLines (ofBytes data path none dialect?).dialect
        data (ofBytes data path none dialect?).spans) :
    (ofBytes data path none dialect?).WithReturns
      (ofBytes (withReturns data) path none dialect?) where
  path := rfl
  data := rfl
  comments := Lexer.comments_tokenize_withReturns hReturn hKeeps

/- Linting finds the same violations at their places. -/
theorem lint_withReturns
    (path : String)
    (hRules : sel.build = .ok rules)
    (hReturn : carriageReturn ∉ data)
    (hKeeps :
      Lexer.KeepsLines
        (SourceFile.ofBytes data path none dialect?).dialect data
        (SourceFile.ofBytes data path none dialect?).spans) :
    lint rules
        (SourceFile.ofBytes (withReturns data) path none
          dialect?) =
      (lint rules
        (SourceFile.ofBytes data path none dialect?)).map
        (Violation.toPlace data) := by
  have hWith :=
    SourceFile.withReturns_ofBytes path hReturn hKeeps
  have hScans := SourceFile.scans_ofBytes data path dialect?
  have hScans' :=
    SourceFile.scans_ofBytes (withReturns data) path dialect?
  rw [lint_eq_flatMap hScans hRules,
    lint_eq_flatMap hScans' hRules]
  rcases sel.rules_of_build hRules with
    rfl | ⟨severity, rfl⟩
  · rfl
  · rw [List.flatMap_singleton, List.flatMap_singleton]
    exact hWith.violations_eq severity hScans

/-
  Line ends with a carriage return or without give violations
  that agree one by one, in source whose tokens keep lines.
-/
theorem lint_agrees_withReturns
    (data : Bytes)
    (path : String)
    (dialect? : Option Dialect)
    (hRules : sel.build = .ok rules)
    (hReturn : carriageReturn ∉ data)
    (hKeeps :
      Lexer.KeepsLines
        (SourceFile.ofBytes data path none dialect?).dialect data
        (SourceFile.ofBytes data path none dialect?).spans) :
    List.Forall₂ Violation.Agrees
      (lint rules (SourceFile.ofBytes data path none dialect?))
      (lint rules
        (SourceFile.ofBytes (withReturns data) path none
          dialect?)) := by
  rw [lint_withReturns path hRules hReturn hKeeps,
    List.forall₂_map_right_iff, List.forall₂_same]
  intro v _
  exact v.agrees_toPlace data

/- A literal and two comments in lines of their own. -/
theorem lint_agrees_withReturns_three_lines :
    let data : Bytes :=
      [39, 34, 39, 10, 47, 47, 120, 10, 47, 47, 121]
    let f := SourceFile.ofBytes data "a.c" none (some .cFamily)
    Selection.build {} = .ok Catalog.rules ∧
      carriageReturn ∉ data ∧
      Lexer.KeepsLines f.dialect data f.spans ∧
      List.Forall₂ Violation.Agrees (lint Catalog.rules f)
        (lint Catalog.rules
          (SourceFile.ofBytes (withReturns data) "a.c" none
            (some .cFamily))) :=
  ⟨rfl, by decide, by decide,
    @lint_agrees_withReturns {} Catalog.rules _ _ _ rfl
      (by decide) (by decide)⟩

/-
  A backslash before a line feed hides it, so that text of one
  line goes on in the next and covers the comment there.  A
  carriage return is hidden in its place.
-/
theorem lint_hidden_lineFeed :
    let data : Bytes := [34, 92, 10, 47, 47, 120]
    let f := SourceFile.ofBytes data "a.c" none (some .cFamily)
    let f' :=
      SourceFile.ofBytes (withReturns data) "a.c" none
        (some .cFamily)
    Selection.build {} = .ok Catalog.rules ∧
      carriageReturn ∉ data ∧
      (lint Catalog.rules f).length = 0 ∧
      (lint Catalog.rules f').length = 1 ∧
      ¬ List.Forall₂ Violation.Agrees (lint Catalog.rules f)
          (lint Catalog.rules f') := by
  intro data f f'
  have hRules : Selection.build {} = .ok Catalog.rules := rfl
  have hNone : (lint Catalog.rules f).length = 0 := by
    rw [lint_eq_flatMap (SourceFile.scans_ofBytes _ _ _) hRules]
    decide
  have hOne : (lint Catalog.rules f').length = 1 := by
    rw [lint_eq_flatMap (SourceFile.scans_ofBytes _ _ _) hRules]
    decide
  refine ⟨hRules, by decide, hNone, hOne, ?_⟩
  intro hAgree
  rw [hAgree.length_eq, hOne] at hNone
  cases hNone

end Linting

end CommentLint
