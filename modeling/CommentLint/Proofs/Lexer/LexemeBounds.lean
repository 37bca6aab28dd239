import CommentLint.Proofs.Lexer.Lexeme
import Mathlib.Tactic.Common

/-
  Bounds of lexemes.

  A lexeme takes at least one byte and none past the end, and
  ends next to a byte of ASCII wherever it ends early.

  Key definitions include:
    * `Lexer.EndsInside`

  Key results include:
    * `Lexer.Opens.exists_first`
    * `Lexer.Lexeme.endsInside`
-/

namespace CommentLint

namespace Lexer

open Ascii

------------------------------------------------------------
-- Ends Inside the Bytes
------------------------------------------------------------

/-
  A width takes at least one byte and no more than there are,
  and a byte of ASCII stands on one side of its end.
-/
structure EndsInside
    (s : Bytes)
    (width : Nat) : Prop where
  pos : 0 < width
  le : width ≤ s.length
  ascii :
    width = s.length ∨
      ∃ b : UInt8, b < 0x80 ∧
        (s[width]? = some b ∨ s[width - 1]? = some b)

namespace EndsInside

variable {s : Bytes}
variable {b : UInt8}
variable {n : Nat}

/- All of the bytes. -/
theorem whole
    (h : 0 < s.length) :
    EndsInside s s.length :=
  ⟨h, Nat.le_refl _, Or.inl rfl⟩

/- Up to a byte of ASCII that does not come first. -/
theorem before
    (hByte : s[n]? = some b)
    (hAscii : b < 0x80)
    (hPos : 0 < n) :
    EndsInside s n := by
  rcases List.getElem?_eq_some_iff.mp hByte with ⟨hLt, _⟩
  exact
    ⟨hPos, Nat.le_of_lt hLt, Or.inr ⟨b, hAscii, Or.inl hByte⟩⟩

/- Through a byte of ASCII. -/
theorem through
    (hByte : s[n]? = some b)
    (hAscii : b < 0x80) :
    EndsInside s (n + 1) := by
  rcases List.getElem?_eq_some_iff.mp hByte with ⟨hLt, _⟩
  exact
    ⟨Nat.succ_pos n, hLt, Or.inr ⟨b, hAscii, Or.inr hByte⟩⟩

/- Through a closer whose last byte is one of ASCII. -/
theorem throughCloser
    {closer : Bytes}
    (hLast : closer.getLast? = some b)
    (hAscii : b < 0x80)
    (hStands : closer <+: s.drop n) :
    EndsInside s (n + closer.length) := by
  rcases List.getLast?_eq_some_iff.mp hLast with ⟨closer, rfl⟩
  rcases hStands with ⟨rest, hRest⟩
  have hByte : s[n + closer.length]? = some b := by
    rw [← List.getElem?_drop, ← hRest]
    simp
  rw [List.length_append, ← Nat.add_assoc]
  exact through hByte hAscii

end EndsInside

/- What holds of each end that can be found holds of the end. -/
theorem EndsFrom.elim
    {start total width : Nat}
    {P Q : Nat → Prop}
    {past : Nat → Nat}
    (h : EndsFrom start P past total width)
    (hFound : ∀ n, start ≤ n → P n → Q (past n))
    (hMissing : Q total) :
    Q width := by
  cases h with
  | found hFirst => exact hFound _ hFirst.1 hFirst.2.1
  | missing hNone => exact hMissing

------------------------------------------------------------
-- Lexical Rules
------------------------------------------------------------

/- A line comment takes its two slashes and ends inside. -/
theorem EndsLine.endsInside
    {s : Bytes}
    {width : Nat}
    (hOpener : lineOpener <+: s)
    (h : EndsLine s width) :
    EndsInside s width := by
  rcases hOpener with ⟨rest, rfl⟩
  rcases h with ⟨n, hEnds, rfl⟩
  have hLine :
      2 ≤ n ∧
        (n = (lineOpener ++ rest).length ∨
          (lineOpener ++ rest)[n]? = some lineFeed) := by
    cases hEnds with
    | @found n hFirst =>
        have hFeed := hFirst.2.1
        refine ⟨?_, Or.inr hFeed⟩
        -- The slashes in front are no line feeds.
        rcases n with _ | _ | n
        · exact absurd hFeed (by simp [lineOpener]; decide)
        · exact absurd hFeed (by simp [lineOpener]; decide)
        · exact Nat.le_add_left 2 n
    | missing _ =>
        exact ⟨by simp [lineOpener], Or.inl rfl⟩
  rcases hLine with ⟨hTwo, hStop⟩
  split
  case isTrue hReturn =>
    exact EndsInside.before hReturn (by decide) (by omega)
  case isFalse hOther =>
    rcases hStop with rfl | hFeed
    · exact EndsInside.whole (by omega)
    · exact EndsInside.before hFeed (by decide) (by omega)

/- Text that ends through a closer ends inside. -/
theorem EndsThrough.endsInside
    {closer s : Bytes}
    {b : UInt8}
    {start width : Nat}
    (hPos : 0 < s.length)
    (hLast : closer.getLast? = some b)
    (hAscii : b < 0x80)
    (h : EndsThrough closer start s width) :
    EndsInside s width := by
  refine EndsFrom.elim h ?_ (EndsInside.whole hPos)
  intro n _ hStands
  exact EndsInside.throughCloser hLast hAscii hStands

/- Quoted text ends inside. -/
theorem EndsQuoted.endsInside
    {mark : UInt8}
    {escapes multiline : Bool}
    {start width : Nat}
    {s : Bytes}
    (hPos : 0 < s.length)
    (hAscii : mark < 0x80)
    (hStart : 0 < start)
    (h : EndsQuoted mark escapes multiline start s width) :
    EndsInside s width := by
  refine EndsFrom.elim h ?_ (EndsInside.whole hPos)
  rintro n hLe ⟨_, hByte⟩
  split
  case isTrue hMark => exact EndsInside.through hMark hAscii
  case isFalse hOther =>
    rcases hByte with hMark | ⟨_, hLine⟩
    · exact absurd hMark hOther
    · exact EndsInside.before hLine (by decide) (by omega)

/- A block comment that nests ends inside. -/
theorem EndsBalanced.endsInside
    {s : Bytes}
    {width : Nat}
    (hPos : 0 < s.length)
    (h : EndsBalanced s width) :
    EndsInside s width := by
  rcases h with ⟨n, hBalances, rfl⟩ | ⟨_, rfl⟩
  · exact
      EndsInside.throughCloser rfl (by decide)
        hBalances.stands
  · exact EndsInside.whole hPos

------------------------------------------------------------
-- Character Literals
------------------------------------------------------------

/- The apostrophe is found where one stands. -/
theorem getElem?_of_toApostrophe?
    {passed n : Nat}
    {s : Bytes}
    (h : toApostrophe? passed s = some n) :
    passed ≤ n ∧ s[n - passed]? = some apostrophe := by
  induction s generalizing passed with
  | nil => cases h
  | cons b s ih =>
      rw [toApostrophe?] at h
      split at h
      case isTrue hApostrophe =>
        cases h
        simp [hApostrophe]
      case isFalse hOther =>
        split at h
        case isTrue hLine => cases h
        case isFalse hInside =>
          rcases ih h with ⟨hLe, hByte⟩
          refine ⟨by omega, ?_⟩
          rw [show n - passed = n - (passed + 1) + 1 by omega]
          simpa using hByte

/- A character literal ends with an apostrophe. -/
theorem getElem?_of_characterLiteralWidth?
    {rest : Bytes}
    {width : Nat}
    (h : characterLiteralWidth? rest = some width) :
    2 ≤ width ∧ rest[width - 2]? = some apostrophe := by
  cases rest with
  | nil => cases h
  | cons b rest =>
      rw [characterLiteralWidth?] at h
      split at h
      case isTrue hNone => cases h
      case isFalse hFirst =>
        split at h
        case isTrue hEscape =>
          rcases Option.map_eq_some_iff.mp h with ⟨n, hFound, rfl⟩
          rcases getElem?_of_toApostrophe? hFound with ⟨_, hByte⟩
          refine ⟨by omega, ?_⟩
          have hIn := (List.getElem?_eq_some_iff.mp hByte).1
          rw [List.length_take] at hIn
          rw [Nat.sub_zero,
            List.getElem?_take_of_lt (by omega),
            List.getElem?_drop] at hByte
          simpa [Nat.add_comm] using hByte
        case isFalse hCharacter =>
          dsimp only at h
          split at h
          case isTrue hClose =>
            cases h
            have hWide : 1 ≤ characterWidth b := by
              unfold characterWidth
              split_ifs <;> decide
            refine ⟨by omega, ?_⟩
            rw [List.head?_drop] at hClose
            rw [Nat.add_sub_cancel,
              ← Nat.sub_add_cancel hWide]
            simpa using hClose
          case isFalse hOpen => cases h

------------------------------------------------------------
-- Lexemes
------------------------------------------------------------

/- An opener starts with a byte of ASCII. -/
theorem Opens.exists_first
    {d : Dialect}
    {s : Bytes}
    (h : Opens d s) :
    ∃ b : UInt8, b < 0x80 ∧ s[0]? = some b := by
  have hFirst :
      ∀ {b : UInt8} {opener : Bytes},
        b < 0x80 → b :: opener <+: s →
          ∃ b : UInt8, b < 0x80 ∧ s[0]? = some b := by
    rintro b opener hAscii ⟨rest, rfl⟩
    exact ⟨b, hAscii, rfl⟩
  cases h with
  | lineComment hOpener => exact hFirst (by decide) hOpener
  | blockComment hOpener => exact hFirst (by decide) hOpener
  | quote hOpener => exact hFirst (by decide) hOpener
  | apostrophe _ hOpener => exact hFirst (by decide) hOpener
  | character _ hOpener _ => exact hFirst (by decide) hOpener
  | backtick _ hOpener => exact hFirst (by decide) hOpener

/- Every lexeme ends inside the bytes. -/
theorem Lexeme.endsInside
    {d : Dialect}
    {s : Bytes}
    {kind : SpanKind}
    {width : Nat}
    (h : Lexeme d s kind width) :
    EndsInside s width := by
  have hPos : 0 < s.length := by
    rcases h.opens.exists_first with ⟨b, _, hFirst⟩
    exact (List.getElem?_eq_some_iff.mp hFirst).1
  cases h with
  | lineComment hOpener _ hEnds =>
      exact hEnds.endsInside hOpener
  | flatBlock _ _ _ hEnds =>
      exact hEnds.endsInside hPos rfl (by decide)
  | nestedBlock _ _ _ hEnds =>
      exact hEnds.endsInside hPos
  | tripleQuoted _ hEnds =>
      exact hEnds.endsInside hPos rfl (by decide)
  | quoted _ _ hEnds =>
      exact hEnds.endsInside hPos (by decide) (by decide)
  | apostrophes _ _ hEnds =>
      exact hEnds.endsInside hPos (by decide) (by decide)
  | character _ hOpener hWidth =>
      rcases hOpener with ⟨rest, rfl⟩
      rcases getElem?_of_characterLiteralWidth? hWidth with
        ⟨hTwo, hByte⟩
      have hLast :
          ([apostrophe] ++ rest)[width - 1]? =
            some apostrophe := by
        rw [List.getElem?_append_right (by simp; omega)]
        simpa [Nat.sub_sub] using hByte
      have hEnds := EndsInside.through hLast (by decide)
      rwa [Nat.sub_add_cancel (by omega)] at hEnds
  | backticks _ _ hEnds =>
      exact hEnds.endsInside hPos (by decide) (by decide)
  | rawBackticks _ _ hEnds =>
      exact hEnds.endsInside hPos (by decide) (by decide)

end Lexer

end CommentLint
