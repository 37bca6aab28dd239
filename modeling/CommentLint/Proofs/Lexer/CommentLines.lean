import CommentLint.Proofs.Lexer.LexicalRules
import Mathlib.Tactic.Common

/-
  Line comments and the lines they stand in.

  A line comment stays in its line and leaves nothing on it
  that another comment could start with.  So the comments of
  a source file stand in different lines, one after another.

  Key definitions include:
    * `Lexer.lineFeedsBefore`
    * `Lexer.IsLineComment`

  Key results include:
    * `Lexer.EndsLine.not_mem_take`
    * `Lexer.EndsLine.exists_lineFeed`
    * `Lexer.Scans.isLineComment`
    * `Lexer.IsLineComment.lineFeedsBefore_lt`
-/

namespace CommentLint

namespace Lexer

open Ascii

------------------------------------------------------------
-- Counting Line Feeds
------------------------------------------------------------

section Counting

variable {data : Bytes}
variable {m n : Nat}

/- The number of line feeds before an offset. -/
def lineFeedsBefore
    (data : Bytes)
    (n : Nat) : Nat :=
  (data.take n).count lineFeed

/- Line feeds are counted piece by piece. -/
theorem lineFeedsBefore_add
    (data : Bytes)
    (m n : Nat) :
    lineFeedsBefore data (m + n) =
      lineFeedsBefore data m +
        ((data.drop m).take n).count lineFeed := by
  unfold lineFeedsBefore
  rw [List.take_add, List.count_append]

/- Bytes without a line feed leave the count as it is. -/
theorem lineFeedsBefore_add_of_not_mem
    (h : lineFeed ∉ (data.drop m).take n) :
    lineFeedsBefore data (m + n) = lineFeedsBefore data m := by
  rw [lineFeedsBefore_add, List.count_eq_zero.mpr h,
    Nat.add_zero]

/- A line feed between two offsets raises the count. -/
theorem lineFeedsBefore_lt
    {k : Nat}
    (hFrom : m ≤ k)
    (hTo : k < n)
    (hByte : data[k]? = some lineFeed) :
    lineFeedsBefore data m < lineFeedsBefore data n := by
  obtain ⟨i, rfl⟩ := Nat.exists_eq_add_of_le hFrom
  obtain ⟨j, rfl⟩ := Nat.exists_eq_add_of_lt hTo
  rw [Nat.add_assoc m i j, Nat.add_assoc m (i + j) 1,
    lineFeedsBefore_add]
  apply Nat.lt_add_of_pos_right
  rw [List.count_pos_iff, List.mem_iff_getElem?]
  refine ⟨i, ?_⟩
  rw [List.getElem?_take_of_lt (by omega), List.getElem?_drop]
  exact hByte

end Counting

------------------------------------------------------------
-- Ends of Line Comments
------------------------------------------------------------

section Ends

variable {s : Bytes}
variable {width : Nat}

/- A line comment holds no line feed. -/
theorem EndsLine.not_mem_take
    (h : EndsLine s width) :
    lineFeed ∉ s.take width := by
  rcases h with ⟨n, hEnds, hWidth⟩
  have hLe : width ≤ n := by
    rw [hWidth]
    split
    · exact Nat.sub_le n 1
    · exact Nat.le_refl n
  have hNone : ∀ m, m < n → s[m]? ≠ some lineFeed := by
    intro m hLt
    cases hEnds with
    | found hFirst => exact hFirst.2.2 m (Nat.zero_le m) hLt
    | missing hNone => exact hNone m (Nat.zero_le m)
  intro hMem
  rcases List.mem_iff_getElem?.mp hMem with ⟨m, hByte⟩
  rw [List.getElem?_take] at hByte
  split at hByte
  case isTrue hLt =>
    exact hNone m (Nat.lt_of_lt_of_le hLt hLe) hByte
  case isFalse hFar => cases hByte

/-
  Behind a line comment nothing but a carriage return comes
  before the next line feed.
-/
theorem EndsLine.exists_lineFeed
    {m : Nat}
    {b : UInt8}
    (h : EndsLine s width)
    (hFrom : width ≤ m)
    (hByte : s[m]? = some b)
    (hReturn : b ≠ carriageReturn)
    (hFeed : b ≠ lineFeed) :
    ∃ k, width ≤ k ∧ k < m ∧ s[k]? = some lineFeed := by
  rcases h with ⟨n, hEnds, rfl⟩
  have hPast : n < m := by
    by_contra hNear
    have hNear := Nat.le_of_not_lt hNear
    have hEnd : s[n]? ≠ some b := by
      cases hEnds with
      | @found n hFirst =>
          have hLast : s[n]? = some lineFeed := hFirst.2.1
          intro hOther
          cases hLast.symm.trans hOther
          exact hFeed rfl
      | missing _ => simp
    split at hFrom
    case isTrue hTrimmed =>
      rcases Nat.eq_or_lt_of_le hNear with rfl | hLt
      · exact hEnd hByte
      · have hLast : m = n - 1 := by omega
        rw [hLast, hTrimmed] at hByte
        exact hReturn (by simpa using hByte.symm)
    case isFalse _ =>
      have hSame : m = n := Nat.le_antisymm hNear hFrom
      exact hEnd (hSame ▸ hByte)
  cases hEnds with
  | @found n hFirst =>
      refine ⟨n, ?_, hPast, hFirst.2.1⟩
      split
      · exact Nat.sub_le n 1
      · exact Nat.le_refl n
  | missing _ =>
      have hIn := (List.getElem?_eq_some_iff.mp hByte).1
      omega

end Ends

/- Only line comments are lexemes of their kinds. -/
theorem Lexeme.endsLine
    {d : Dialect}
    {s : Bytes}
    {kind : SpanKind}
    {width : Nat}
    (h : Lexeme d s kind width)
    (hLine : kind.isLineComment = true) :
    lineOpener <+: s ∧ EndsLine s width := by
  cases h with
  | lineComment hOpener _ hEnds => exact ⟨hOpener, hEnds⟩
  | flatBlock _ _ hKind _ => cases hKind <;> cases hLine
  | nestedBlock _ _ hKind _ => cases hKind <;> cases hLine
  | tripleQuoted _ _ => cases hLine
  | quoted _ _ _ => cases hLine
  | apostrophes _ _ _ => cases hLine
  | character _ _ _ => cases hLine
  | backticks _ _ _ => cases hLine
  | rawBackticks _ _ _ => cases hLine

------------------------------------------------------------
-- Comments of a Run
------------------------------------------------------------

/- A span is a line comment of the bytes, where it stands. -/
structure IsLineComment
    (data : Bytes)
    (s : Span) : Prop where
  offset_nonneg : 0 ≤ s.offset
  length_nonneg : 0 ≤ s.length
  kind : s.kind.isLineComment = true
  opener : lineOpener <+: data.drop s.offset.toNat
  ends : EndsLine (data.drop s.offset.toNat) s.length.toNat

/- The first byte of a line comment is a slash. -/
theorem IsLineComment.getElem?_offset
    {data : Bytes}
    {s : Span}
    (h : IsLineComment data s) :
    data[s.offset.toNat]? = some slash := by
  rcases h.opener with ⟨rest, hRest⟩
  rw [← Nat.add_zero s.offset.toNat, ← List.getElem?_drop,
    ← hRest]
  rfl

section Runs

variable {d : Dialect}
variable {data : Bytes}
variable {pos : Nat}
variable {spans : List Span}

/- The comments that a run finds are line comments. -/
theorem Scans.isLineComment
    {s : Span}
    (h : Scans d data pos spans)
    (hMem : s ∈ spans)
    (hLine : s.kind.isLineComment = true) :
    IsLineComment data s := by
  have hKind : s.kind ≠ .code := by
    intro hCode
    rw [hCode] at hLine
    cases hLine
  rcases h.token?_of_mem hMem hKind with
    ⟨n, width, hSpan, hToken⟩
  rcases (lexeme_of_token? hToken).endsLine hLine with
    ⟨hOpener, hEnds⟩
  rw [hSpan]
  exact
    ⟨Int.natCast_nonneg n, Int.natCast_nonneg width, hLine,
      hOpener, hEnds⟩

/- A comment that starts behind another is in a later line. -/
theorem IsLineComment.lineFeedsBefore_lt
    {s s' : Span}
    (h : IsLineComment data s)
    (h' : IsLineComment data s')
    (hApart : s.stop ≤ s'.offset) :
    lineFeedsBefore data s.offset.toNat <
      lineFeedsBefore data s'.offset.toNat := by
  have hOffset := h.offset_nonneg
  have hLength := h.length_nonneg
  unfold Span.stop at hApart
  obtain ⟨m, hm⟩ :=
    Nat.exists_eq_add_of_le
      (show s.offset.toNat ≤ s'.offset.toNat by omega)
  have hByte := h'.getElem?_offset
  rw [hm, ← List.getElem?_drop] at hByte
  rcases
      h.ends.exists_lineFeed (by omega) hByte (by decide)
        (by decide) with
    ⟨k, _, hTo, hFeed⟩
  rw [List.getElem?_drop] at hFeed
  exact
    Lexer.lineFeedsBefore_lt (Nat.le_add_right _ k) (by omega)
      hFeed

/- No line ends between the start of a comment and its end. -/
theorem IsLineComment.lineFeedsBefore_eq
    {s : Span}
    {n : Nat}
    (h : IsLineComment data s)
    (hCovers : s.Covers n) :
    lineFeedsBefore data n =
      lineFeedsBefore data s.offset.toNat := by
  have hOffset := h.offset_nonneg
  rcases hCovers with ⟨hFrom, hTo⟩
  unfold Span.stop at hTo
  obtain ⟨m, rfl⟩ :=
    Nat.exists_eq_add_of_le
      (show s.offset.toNat ≤ n by omega)
  apply lineFeedsBefore_add_of_not_mem
  intro hMem
  apply h.ends.not_mem_take
  exact
    List.take_subset_take_left _
      (show m ≤ s.length.toNat by omega) hMem

end Runs

end Lexer

end CommentLint
