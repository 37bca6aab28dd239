import CommentLint.Lexer
import Mathlib.Tactic.Common

/-
  Where comments of one depth and quoted text end.

  Each of the scans looks for the first place from an offset
  on where something stands, and takes everything there is
  when it stands nowhere.

  Key definitions include:
    * `Lexer.EndsFrom`
    * `Lexer.EndsLine`
    * `Lexer.EndsThrough`
    * `Lexer.EndsQuoted`

  Key results include:
    * `Lexer.endsLine_lineCommentWidth`
    * `Lexer.endsThrough_widthThrough`
    * `Lexer.endsQuoted_quotedWidth`
-/

namespace CommentLint

namespace Lexer

open Ascii

------------------------------------------------------------
-- First Places
------------------------------------------------------------

/- The first place with a property, from `start` on. -/
def IsFirstFrom
    (start : Nat)
    (P : Nat → Prop)
    (n : Nat) : Prop :=
  start ≤ n ∧ P n ∧ ∀ m, start ≤ m → m < n → ¬ P m

/-
  The end for the first place with a property, from `start`
  on, or `total` when no place has it.
-/
inductive EndsFrom
    (start : Nat)
    (P : Nat → Prop)
    (past : Nat → Nat)
    (total : Nat) :
    Nat → Prop where
| found {n : Nat} :
    IsFirstFrom start P n →
    EndsFrom start P past total (past n)
| missing :
    (∀ n, start ≤ n → ¬ P n) →
    EndsFrom start P past total total

namespace EndsFrom

variable {start total width : Nat}
variable {P : Nat → Prop}
variable {past : Nat → Nat}

/- The search ends at once where the property holds. -/
theorem here
    (h : P start)
    (hWidth : width = past start) :
    EndsFrom start P past total width := by
  subst hWidth
  exact
    found
      ⟨Nat.le_refl start, h,
        fun _ hLe hLt => absurd hLt (Nat.not_lt.mpr hLe)⟩

/- A place without the property is passed over. -/
theorem skip
    (h : ¬ P start)
    (hEnds : EndsFrom (start + 1) P past total width) :
    EndsFrom start P past total width := by
  have hAt :
      ∀ {m}, start ≤ m → P m → start + 1 ≤ m := by
    intro m hLe hHolds
    rcases Nat.eq_or_lt_of_le hLe with rfl | hLt
    · exact absurd hHolds h
    · exact hLt
  cases hEnds with
  | found hFirst =>
      rcases hFirst with ⟨hLe, hHolds, hBefore⟩
      refine found ⟨by omega, hHolds, ?_⟩
      intro m hFrom hLt hEarlier
      exact hBefore m (hAt hFrom hEarlier) hLt hEarlier
  | missing hNone =>
      apply missing
      intro m hFrom hHolds
      exact hNone m (hAt hFrom hHolds) hHolds

end EndsFrom

------------------------------------------------------------
-- Line Comments
------------------------------------------------------------

/-
  A width ends at the first line feed or the end of the
  bytes, less one carriage return directly before it.
-/
def EndsLine
    (s : Bytes)
    (width : Nat) : Prop :=
  ∃ n,
    EndsFrom 0 (fun m => s[m]? = some lineFeed) id s.length n ∧
      width =
        if s[n - 1]? = some carriageReturn then n - 1 else n

/- The first line feed is found, or there is none. -/
theorem endsFrom_findIdx_lineFeed
    (s : Bytes) :
    EndsFrom 0 (fun m => s[m]? = some lineFeed) id s.length
      (s.findIdx (· == lineFeed)) := by
  have hNone :
      ∀ m, m < s.findIdx (· == lineFeed) →
        s[m]? ≠ some lineFeed := by
    intro m hLt hByte
    rcases List.getElem?_eq_some_iff.mp hByte with ⟨hIn, hAt⟩
    have hOther := List.not_of_lt_findIdx hLt
    simp [hAt] at hOther
  rcases Nat.lt_or_ge (s.findIdx (· == lineFeed)) s.length with
    hLt | hLe
  · have hByte := List.findIdx_getElem (w := hLt)
    have hAt :
        s[s.findIdx (· == lineFeed)]? = some lineFeed := by
      rw [List.getElem?_eq_getElem hLt]
      simpa using hByte
    exact
      EndsFrom.found
        ⟨Nat.zero_le _, hAt, fun m _ hBefore => hNone m hBefore⟩
  · have hEnd :
        s.findIdx (· == lineFeed) = s.length :=
      Nat.le_antisymm List.findIdx_le_length hLe
    rw [hEnd] at hNone ⊢
    apply EndsFrom.missing
    intro n _ hByte
    rcases List.getElem?_eq_some_iff.mp hByte with ⟨hIn, _⟩
    exact hNone n hIn hByte

/- A line comment ends with its line. -/
theorem endsLine_lineCommentWidth
    (s : Bytes) :
    EndsLine s (lineCommentWidth s) := by
  have hLine :
      s.takeWhile (· != lineFeed) =
        s.take (s.findIdx (· == lineFeed)) := by
    rw [List.takeWhile_eq_take_findIdx_not]
    simp [bne]
  have hLength :
      (s.takeWhile (· != lineFeed)).length =
        s.findIdx (· == lineFeed) := by
    rw [hLine, List.length_take]
    exact Nat.min_eq_left List.findIdx_le_length
  refine ⟨_, endsFrom_findIdx_lineFeed s, ?_⟩
  unfold lineCommentWidth
  simp only [hLength]
  rcases Nat.eq_zero_or_pos (s.findIdx (· == lineFeed)) with
    hZero | hPos
  · simp [hZero]
  · rw [List.getLast?_eq_getElem?, hLength, hLine,
      List.getElem?_take_of_lt (Nat.sub_one_lt_of_lt hPos)]

------------------------------------------------------------
-- Closed Text
------------------------------------------------------------

/-
  A width ends just past the first closer at or after an
  offset, or at the end of the bytes.
-/
def EndsThrough
    (closer : Bytes)
    (start : Nat)
    (s : Bytes)
    (width : Nat) : Prop :=
  EndsFrom start (fun n => closer <+: s.drop n)
    (· + closer.length) s.length width

/- The search for a closer stops just past it. -/
theorem endsThrough_widthThrough
    {closer : Bytes}
    (hCloser : closer ≠ [])
    (done rest : Bytes) :
    EndsThrough closer done.length (done ++ rest)
      (widthThrough closer done.length rest) := by
  unfold EndsThrough
  induction rest generalizing done with
  | nil =>
      rw [widthThrough, List.append_nil]
      apply EndsFrom.missing
      intro n hLe hStands
      rw [List.drop_eq_nil_of_le hLe, List.prefix_nil] at hStands
      exact hCloser hStands
  | cons b rest ih =>
      rw [widthThrough]
      split
      case isTrue hStands =>
        refine EndsFrom.here ?_ rfl
        rw [List.drop_left]
        exact List.isPrefixOf_iff_prefix.mp hStands
      case isFalse hOther =>
        have hNext := ih (done ++ [b])
        simp only [List.append_assoc, List.singleton_append,
          List.length_append, List.length_singleton] at hNext
        refine EndsFrom.skip ?_ (by simpa using hNext)
        rw [List.drop_left]
        exact fun h => hOther ( List.isPrefixOf_iff_prefix.mpr h)

------------------------------------------------------------
-- Quoted Text
------------------------------------------------------------

/- How many backslashes stand at the end of the bytes. -/
def trailingBackslashes (s : Bytes) : Nat :=
  (s.reverse.takeWhile (· == backslash)).length

/- One more backslash, or none behind another byte. -/
theorem trailingBackslashes_append_singleton
    (s : Bytes)
    (b : UInt8) :
    trailingBackslashes (s ++ [b]) =
      if b = backslash then trailingBackslashes s + 1 else 0 := by
  unfold trailingBackslashes
  rw [List.reverse_append, List.reverse_singleton,
    List.singleton_append]
  by_cases h : b = backslash
  · simp [h]
  · rw [List.takeWhile_cons_of_neg (by simpa using h), if_neg h]
    rfl

/-
  A byte is escaped where text has escapes and an odd number
  of backslashes stand directly before it.
-/
def Escaped
    (escapes : Bool)
    (s : Bytes)
    (n : Nat) : Prop :=
  escapes = true ∧ trailingBackslashes (s.take n) % 2 = 1

/-
  Text closes at a quote, and text of one line at a line feed
  too, where these are not escaped.
-/
def ClosesText
    (mark : UInt8)
    (escapes multiline : Bool)
    (s : Bytes)
    (n : Nat) : Prop :=
  ¬ Escaped escapes s n ∧
    (s[n]? = some mark ∨
      multiline = false ∧ s[n]? = some lineFeed)

/-
  A width ends just past the first quote that closes the text
  or at the line feed that does, or at the end of the bytes.
-/
def EndsQuoted
    (mark : UInt8)
    (escapes multiline : Bool)
    (start : Nat)
    (s : Bytes)
    (width : Nat) : Prop :=
  EndsFrom start (ClosesText mark escapes multiline s)
    (fun n => if s[n]? = some mark then n + 1 else n)
    s.length width

/- The scan tells bytes that hide nothing apart. -/
theorem quotedWidth_cons
    {mark b : UInt8}
    {escapes multiline : Bool}
    (hHides : ¬ (escapes = true ∧ b = backslash))
    (passed : Nat)
    (s : Bytes) :
    quotedWidth mark escapes multiline passed (b :: s) =
      if b = mark then passed + 1
      else if b = lineFeed ∧ multiline = false then passed
      else quotedWidth mark escapes multiline (passed + 1) s := by
  cases s <;> simp [quotedWidth, hHides]

/-
  Where the scan stands, an even number of backslashes has
  been passed, so that the next byte is not escaped.
-/
def Unhidden
    (escapes : Bool)
    (done : Bytes) : Prop :=
  escapes = true → trailingBackslashes done % 2 = 0

namespace Unhidden

variable {mark b c : UInt8}
variable {escapes multiline : Bool}
variable {done rest : Bytes}

/- A byte that hides nothing leaves the next byte unhidden. -/
theorem append_singleton
    (hHides : ¬ (escapes = true ∧ b = backslash)) :
    Unhidden escapes (done ++ [b]) := by
  intro hEscapes
  rw [trailingBackslashes_append_singleton, if_neg]
  exact fun hByte => hHides ⟨hEscapes, hByte⟩

/- So does a backslash together with the byte it hides. -/
theorem append_pair
    (h : Unhidden escapes done) :
    Unhidden escapes (done ++ [backslash, c]) := by
  intro hEscapes
  have hPair :
      done ++ [backslash, c] = done ++ [backslash] ++ [c] := by
    simp
  rw [hPair, trailingBackslashes_append_singleton,
    trailingBackslashes_append_singleton, if_pos rfl]
  have hEven := h hEscapes
  split <;> omega

/- An unhidden byte closes the text if it can. -/
theorem closesText_iff
    (h : Unhidden escapes done) :
    ClosesText mark escapes multiline (done ++ b :: rest)
        done.length ↔
      b = mark ∨ multiline = false ∧ b = lineFeed := by
  have hPlain :
      ¬ Escaped escapes (done ++ b :: rest) done.length := by
    rintro ⟨hEscapes, hOdd⟩
    rw [List.take_left] at hOdd
    have hEven := h hEscapes
    omega
  simp [ClosesText, hPlain]

/- A backslash closes no text. -/
theorem not_closesText
    (h : Unhidden escapes done)
    (hMark : mark ≠ backslash) :
    ¬ ClosesText mark escapes multiline
      (done ++ backslash :: rest) done.length := by
  rw [h.closesText_iff]
  rintro (hClose | ⟨_, hClose⟩)
  · exact hMark hClose.symm
  · exact absurd hClose (by decide)

/- The byte behind an unhidden backslash closes no text. -/
theorem not_closesText_succ
    (h : Unhidden escapes done)
    (hEscapes : escapes = true) :
    ¬ ClosesText mark escapes multiline
      (done ++ backslash :: rest) (done.length + 1) := by
  rintro ⟨hPlain, _⟩
  apply hPlain
  refine ⟨hEscapes, ?_⟩
  have hTake :
      (done ++ backslash :: rest).take (done.length + 1) =
        done ++ [backslash] := by
    rw [List.take_length_add_append]
    rfl
  rw [hTake, trailingBackslashes_append_singleton, if_pos rfl]
  have hEven := h hEscapes
  omega

end Unhidden

/- No text closes past the end of the bytes. -/
theorem not_closesText_of_length_le
    {mark : UInt8}
    {escapes multiline : Bool}
    {s : Bytes}
    {n : Nat}
    (h : s.length ≤ n) :
    ¬ ClosesText mark escapes multiline s n := by
  rintro ⟨_, hByte⟩
  rw [List.getElem?_eq_none h] at hByte
  simp at hByte

section QuotedSteps

variable {mark b c : UInt8}
variable {escapes multiline : Bool}
variable {done rest : Bytes}

/- A byte that hides nothing closes the text or is passed over. -/
theorem endsQuoted_plain
    (hUnhidden : Unhidden escapes done)
    (hHides : ¬ (escapes = true ∧ b = backslash))
    (hNext :
      EndsQuoted mark escapes multiline (done.length + 1)
        (done ++ b :: rest)
        (quotedWidth mark escapes multiline (done.length + 1)
          rest)) :
    EndsQuoted mark escapes multiline done.length
      (done ++ b :: rest)
      (quotedWidth mark escapes multiline done.length
        (b :: rest)) := by
  rw [quotedWidth_cons hHides]
  split
  case isTrue hClose =>
    apply EndsFrom.here
    · rw [hUnhidden.closesText_iff]
      exact Or.inl hClose
    · simp [hClose]
  case isFalse hOther =>
    split
    case isTrue hLine =>
      apply EndsFrom.here
      · rw [hUnhidden.closesText_iff]
        exact Or.inr hLine.symm
      · simp [hOther]
    case isFalse hInside =>
      apply EndsFrom.skip ?_ hNext
      rw [hUnhidden.closesText_iff]
      rintro (hClose | hLine)
      · exact hOther hClose
      · exact hInside hLine.symm

/- A backslash is passed over with the byte it hides. -/
theorem endsQuoted_pair
    (hUnhidden : Unhidden escapes done)
    (hMark : mark ≠ backslash)
    (hEscapes : escapes = true)
    (hNext :
      EndsQuoted mark escapes multiline (done.length + 2)
        (done ++ backslash :: c :: rest)
        (quotedWidth mark escapes multiline (done.length + 2)
          rest)) :
    EndsQuoted mark escapes multiline done.length
      (done ++ backslash :: c :: rest)
      (quotedWidth mark escapes multiline done.length
        (backslash :: c :: rest)) := by
  have hWidth :
      quotedWidth mark escapes multiline done.length
          (backslash :: c :: rest) =
        quotedWidth mark escapes multiline (done.length + 2)
          rest := by
    simp [quotedWidth, hEscapes]
  rw [hWidth]
  apply EndsFrom.skip (hUnhidden.not_closesText hMark)
  apply EndsFrom.skip (hUnhidden.not_closesText_succ hEscapes)
  exact hNext

/- A last backslash hides nothing. -/
theorem endsQuoted_backslash
    (hUnhidden : Unhidden escapes done)
    (hMark : mark ≠ backslash)
    (hEscapes : escapes = true) :
    EndsQuoted mark escapes multiline done.length
      (done ++ [backslash])
      (quotedWidth mark escapes multiline done.length
        [backslash]) := by
  have hWidth :
      quotedWidth mark escapes multiline done.length
          [backslash] =
        (done ++ [backslash]).length := by
    simp [quotedWidth, hEscapes]
  rw [hWidth]
  apply EndsFrom.skip (hUnhidden.not_closesText hMark)
  apply EndsFrom.missing
  intro n hLe
  apply not_closesText_of_length_le
  simpa using hLe

end QuotedSteps

/-
  The scan that skips two bytes at a backslash stops where the
  count of backslashes says that the text closes.
-/
theorem endsQuoted_quotedWidth
    {mark : UInt8}
    {escapes multiline : Bool}
    (hMark : mark ≠ backslash)
    (done rest : Bytes)
    (hUnhidden : Unhidden escapes done) :
    EndsQuoted mark escapes multiline done.length
      (done ++ rest)
      (quotedWidth mark escapes multiline done.length rest) := by
  -- A backslash takes two bytes, so the induction is on how
  -- many bytes are left.
  induction hLeft : rest.length using Nat.strongRecOn
    generalizing done rest with
  | ind left ih =>
      cases rest with
      | nil =>
          rw [quotedWidth, List.append_nil]
          apply EndsFrom.missing
          intro n hLe
          exact not_closesText_of_length_le hLe
      | cons b rest =>
          rw [List.length_cons] at hLeft
          by_cases hHides : escapes = true ∧ b = backslash
          · rcases hHides with ⟨hEscapes, rfl⟩
            cases rest with
            | nil =>
                exact
                  endsQuoted_backslash hUnhidden hMark hEscapes
            | cons c rest =>
                rw [List.length_cons] at hLeft
                have hNext :=
                  ih rest.length (by omega)
                    (done ++ [backslash, c]) rest
                    hUnhidden.append_pair rfl
                apply endsQuoted_pair hUnhidden hMark hEscapes
                simpa using hNext
          · have hNext :=
              ih rest.length (by omega) (done ++ [b]) rest
                (Unhidden.append_singleton hHides) rfl
            apply endsQuoted_plain hUnhidden hHides
            simpa using hNext

/- Text ends as told behind the quote that opens it. -/
theorem endsQuoted_cons
    {mark : UInt8}
    {escapes multiline : Bool}
    (hMark : mark ≠ backslash)
    (rest : Bytes) :
    EndsQuoted mark escapes multiline 1 (mark :: rest)
      (quotedWidth mark escapes multiline 1 rest) := by
  have hFirst : Unhidden escapes ([] ++ [mark]) :=
    Unhidden.append_singleton fun hHides => hMark hHides.2
  exact endsQuoted_quotedWidth hMark [mark] rest hFirst

end Lexer

end CommentLint
