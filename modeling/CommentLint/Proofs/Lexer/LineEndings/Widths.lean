import CommentLint.Proofs.Lexer.BlockMarks
import CommentLint.Proofs.Lexer.TokenEnds
import CommentLint.Proofs.Source.LineEndings
import Mathlib.Tactic.Common

/-
  Widths of tokens in bytes whose line feeds get carriage
  returns.

  A scan that goes through the bytes meets the same marks at
  their places.  Text of one line goes on up to the carriage
  return, and an escape hides it in place of the line feed, so
  such text is followed only where it holds no line feed.

  Key definitions include:
    * `Lexer.KeepsPace`
    * `Lexer.EndsAlike`

  Key results include:
    * `Lexer.keepsPace_widthThrough`
    * `Lexer.keepsPace_nestedWidth`
    * `Lexer.endsAlike_quotedWidth`
    * `Lexer.characterLiteralWidth?_withReturns`
-/

namespace CommentLint

namespace Lexer

open Ascii

------------------------------------------------------------
-- Scans That Keep Pace
------------------------------------------------------------

/-
  Two widths, behind what each scan had passed before, go to
  the same place of the bytes without and with returns.
-/
def KeepsPace
    (s : Bytes)
    (passed passed' width width' : Nat) : Prop :=
  ∃ n,
    width = passed + n ∧
      width' = passed' + (withReturns (s.take n)).length

/-
  The scans keep pace, or the first one stops at a line feed
  and the second one right behind its carriage return.
-/
def EndsAlike
    (s : Bytes)
    (passed passed' width width' : Nat) : Prop :=
  KeepsPace s passed passed' width width' ∨
    ∃ n,
      width = passed + n ∧ s[n]? = some lineFeed ∧
        width' = passed' + (withReturns (s.take n)).length + 1

section Pace

variable {s : Bytes}
variable {b : UInt8}
variable {passed passed' width width' : Nat}

/- Both scans stop behind the same bytes. -/
theorem KeepsPace.here
    (passed passed' : Nat)
    (t s : Bytes) :
    KeepsPace (t ++ s) passed passed' (passed + t.length)
      (passed' + (withReturns t).length) :=
  ⟨t.length, rfl, by rw [List.take_left]⟩

/- Both scans pass over bytes without a line feed. -/
theorem KeepsPace.append
    {t : Bytes}
    (hFeed : lineFeed ∉ t)
    (h :
      KeepsPace s (passed + t.length) (passed' + t.length) width
        width') :
    KeepsPace (t ++ s) passed passed' width width' := by
  rcases h with ⟨n, hWidth, hWidth'⟩
  refine ⟨t.length + n, by omega, ?_⟩
  rw [List.take_length_add_append,
    withReturns_append_of_not_mem hFeed, List.length_append]
  omega

/- Both scans pass over a byte that ends no line. -/
theorem KeepsPace.cons
    (hFeed : b ≠ lineFeed)
    (h : KeepsPace s (passed + 1) (passed' + 1) width width') :
    KeepsPace (b :: s) passed passed' width width' := by
  have hByte : lineFeed ∉ [b] := by
    simpa using Ne.symm hFeed
  exact KeepsPace.append hByte h

/- Bytes without a line feed keep their width. -/
theorem KeepsPace.of_not_mem
    (hLe : width ≤ s.length)
    (hFeed : lineFeed ∉ s.take width) :
    KeepsPace s 0 0 width width := by
  refine ⟨width, (Nat.zero_add width).symm, ?_⟩
  rw [withReturns_eq_self hFeed, List.length_take_of_le hLe,
    Nat.zero_add]

/- Both scans pass over a line feed. -/
theorem KeepsPace.lineFeed
    (h : KeepsPace s (passed + 1) (passed' + 2) width width') :
    KeepsPace (lineFeed :: s) passed passed' width width' := by
  rcases h with ⟨n, hWidth, hWidth'⟩
  refine ⟨n + 1, by omega, ?_⟩
  rw [List.take_succ_cons, withReturns_lineFeed,
    List.length_cons, List.length_cons]
  omega

/- Both scans start behind a byte that ends no line. -/
theorem EndsAlike.cons
    (hFeed : b ≠ Ascii.lineFeed)
    (h : EndsAlike s (passed + 1) (passed' + 1) width width') :
    EndsAlike (b :: s) passed passed' width width' := by
  rcases h with hPace | ⟨n, hWidth, hByte, hWidth'⟩
  · exact Or.inl (hPace.cons hFeed)
  · refine Or.inr ⟨n + 1, by omega, by simpa using hByte, ?_⟩
    rw [List.take_succ_cons, withReturns_cons_of_ne hFeed,
      List.length_cons]
    omega

/- The first scan does not go back. -/
theorem EndsAlike.exists_width
    (h : EndsAlike s passed passed' width width') :
    ∃ n, width = passed + n := by
  rcases h with ⟨n, hWidth, _⟩ | ⟨n, hWidth, _⟩
  · exact ⟨n, hWidth⟩
  · exact ⟨n, hWidth⟩

end Pace

------------------------------------------------------------
-- Closers
------------------------------------------------------------

section Closers

variable {closer s : Bytes}
variable {b : UInt8}
variable {passed : Nat}

/- The search ends where the closer stands. -/
theorem widthThrough_of_stands
    (hCloser : closer ≠ [])
    (h : closer <+: s) :
    widthThrough closer passed s = passed + closer.length := by
  cases s with
  | nil => exact absurd (List.prefix_nil.mp h) hCloser
  | cons b s =>
      rw [widthThrough,
        if_pos ( List.isPrefixOf_iff_prefix.mpr h)]

/- Elsewhere it passes over a byte. -/
theorem widthThrough_cons_of_not_stands
    (h : ¬ closer <+: b :: s) :
    widthThrough closer passed (b :: s) =
      widthThrough closer (passed + 1) s := by
  rw [widthThrough, if_neg]
  rwa [ List.isPrefixOf_iff_prefix]

/- A closer without line ends is found at its place. -/
theorem keepsPace_widthThrough
    (hCloser : closer ≠ [])
    (hInLine : IsInLine closer)
    (passed passed' : Nat)
    (s : Bytes) :
    KeepsPace s passed passed' (widthThrough closer passed s)
      (widthThrough closer passed' (withReturns s)) := by
  have hStands :
      ∀ s, closer <+: withReturns s ↔ closer <+: s :=
    fun s => prefix_withReturns_iff hInLine
  induction s generalizing passed passed' with
  | nil => exact KeepsPace.here passed passed' [] []
  | cons b s ih =>
      by_cases hHere : closer <+: b :: s
      · rw [widthThrough_of_stands hCloser hHere,
          widthThrough_of_stands hCloser
            ((hStands _).mpr hHere)]
        rcases hHere with ⟨rest, hRest⟩
        have hPace := KeepsPace.here passed passed' closer rest
        rwa [withReturns_eq_self hInLine.1, hRest] at hPace
      · have hOther := mt (hStands _).mp hHere
        rw [widthThrough_cons_of_not_stands hHere]
        by_cases hb : b = lineFeed
        · subst hb
          have hBehind :
              ¬ closer <+: lineFeed :: withReturns s := by
            intro h
            cases closer with
            | nil => exact hCloser rfl
            | cons c closer =>
                rw [List.cons_prefix_cons] at h
                exact hInLine.1 (by simp [h.1])
          rw [withReturns_lineFeed] at hOther ⊢
          rw [widthThrough_cons_of_not_stands hOther,
            widthThrough_cons_of_not_stands hBehind]
          exact (ih _ _).lineFeed
        · rw [withReturns_cons_of_ne hb] at hOther ⊢
          rw [widthThrough_cons_of_not_stands hOther]
          exact (ih _ _).cons hb

end Closers

------------------------------------------------------------
-- Nested Comments
------------------------------------------------------------

section Nested

variable {s : Bytes}
variable {b : UInt8}
variable {depth passed : Nat}

/- A byte that is part of no mark is passed over. -/
theorem nestedWidth_cons_of_ne
    (hSlash : b ≠ slash)
    (hStar : b ≠ star)
    (s : Bytes) :
    nestedWidth depth passed (b :: s) =
      nestedWidth depth (passed + 1) s := by
  apply nestedWidth_cons_of_not_stands
  · simp [blockOpener, Ne.symm hSlash]
  · simp [blockCloser, Ne.symm hStar]

/- The closer that balances is found at its place. -/
theorem keepsPace_nestedWidth
    (depth passed passed' : Nat)
    (s : Bytes) :
    KeepsPace s passed passed' (nestedWidth depth passed s)
      (nestedWidth depth passed' (withReturns s)) := by
  have hSlash : slash ≠ lineFeed := by decide
  have hStar : star ≠ lineFeed := by decide
  have hLineEnd :
      ∀ depth passed s,
        nestedWidth depth passed (carriageReturn :: lineFeed :: s) =
          nestedWidth depth (passed + 2) s := by
    intro depth passed s
    rw [nestedWidth_cons_of_ne (by decide) (by decide),
      nestedWidth_cons_of_ne (by decide) (by decide)]
  induction depth, passed, s using nestedWidth.induct
    generalizing passed' with
  | case1 depth passed => exact KeepsPace.here passed passed' [] []
  | case2 depth passed b =>
      by_cases hb : b = lineFeed
      · subst hb
        rw [withReturns_lineFeed, hLineEnd]
        exact (KeepsPace.here _ _ [] []).lineFeed
      · rw [withReturns_cons_of_ne hb]
        exact (KeepsPace.here _ _ [] []).cons hb
  | case3 depth passed a b s hOpener ih =>
      rcases hOpener with ⟨rfl, rfl⟩
      rw [withReturns_cons_of_ne hSlash,
        withReturns_cons_of_ne hStar, nestedWidth_opener,
        nestedWidth_opener]
      exact ((ih _).cons hStar).cons hSlash
  | case4 depth passed a b s _ hCloser hLast =>
      rcases hCloser with ⟨rfl, rfl⟩
      rw [withReturns_cons_of_ne hStar,
        withReturns_cons_of_ne hSlash, nestedWidth_closer,
        nestedWidth_closer, if_pos hLast, if_pos hLast]
      exact ((KeepsPace.here _ _ [] s).cons hSlash).cons hStar
  | case5 depth passed a b s _ hCloser hOpen ih =>
      rcases hCloser with ⟨rfl, rfl⟩
      rw [withReturns_cons_of_ne hStar,
        withReturns_cons_of_ne hSlash, nestedWidth_closer,
        nestedWidth_closer, if_neg hOpen, if_neg hOpen]
      exact ((ih _).cons hSlash).cons hStar
  | case6 depth passed a b s hOpener hCloser ih =>
      rw [nestedWidth, if_neg hOpener, if_neg hCloser]
      by_cases ha : a = lineFeed
      · subst ha
        rw [withReturns_lineFeed, hLineEnd]
        exact (ih _).lineFeed
      · have hNoOpener : ¬ blockOpener <+: a :: b :: s := by
          simpa [blockOpener, eq_comm] using hOpener
        have hNoCloser : ¬ blockCloser <+: a :: b :: s := by
          simpa [blockCloser, eq_comm] using hCloser
        rw [ ← prefix_withReturns_iff (by decide),
          withReturns_cons_of_ne ha] at hNoOpener hNoCloser
        rw [withReturns_cons_of_ne ha,
          nestedWidth_cons_of_not_stands hNoOpener hNoCloser]
        exact (ih _).cons ha

end Nested

------------------------------------------------------------
-- Quoted Text
------------------------------------------------------------

section Quoted

variable {mark b : UInt8}
variable {escapes multiline : Bool}
variable {s : Bytes}
variable {passed : Nat}

/- A backslash is passed over with the byte that it hides. -/
theorem quotedWidth_backslash
    (mark c : UInt8)
    (multiline : Bool)
    (passed : Nat)
    (s : Bytes) :
    quotedWidth mark true multiline passed
        (backslash :: c :: s) =
      quotedWidth mark true multiline (passed + 2) s := by
  rfl

/- A byte that neither hides nor closes is passed over. -/
theorem quotedWidth_cons_of_ne
    (hHides : ¬ (escapes = true ∧ b = backslash))
    (hMark : b ≠ mark)
    (hLine : ¬ (b = lineFeed ∧ multiline = false))
    (passed : Nat)
    (s : Bytes) :
    quotedWidth mark escapes multiline passed (b :: s) =
      quotedWidth mark escapes multiline (passed + 1) s := by
  rw [quotedWidth_cons hHides, if_neg hMark, if_neg hLine]

/- A carriage return is passed over. -/
theorem quotedWidth_return
    (hMark : mark ≠ carriageReturn)
    (escapes multiline : Bool)
    (passed : Nat)
    (s : Bytes) :
    quotedWidth mark escapes multiline passed
        (carriageReturn :: s) =
      quotedWidth mark escapes multiline (passed + 1) s :=
  quotedWidth_cons_of_ne (fun h => absurd h.2 (by decide))
    (Ne.symm hMark) (fun h => absurd h.1 (by decide)) passed s

/- In text over several lines a line feed is passed over. -/
theorem quotedWidth_lineFeed
    (hMark : mark ≠ lineFeed)
    (escapes : Bool)
    (passed : Nat)
    (s : Bytes) :
    quotedWidth mark escapes true passed (lineFeed :: s) =
      quotedWidth mark escapes true (passed + 1) s :=
  quotedWidth_cons_of_ne (fun h => absurd h.2 (by decide))
    (Ne.symm hMark) (fun h => absurd h.2 (by decide)) passed s

/-
  What holds behind each byte holds of all bytes, where a
  backslash that hides is taken with the byte behind it.
-/
theorem escape_induction
    {motive : Bytes → Prop}
    (escapes : Bool)
    (nil : motive [])
    (plain : ∀ b s,
      ¬ (escapes = true ∧ b = backslash) →
        motive s → motive (b :: s))
    (last : escapes = true → motive [backslash])
    (pair : ∀ c s,
      escapes = true → motive s →
        motive (backslash :: c :: s))
    (s : Bytes) :
    motive s := by
  induction hLength : s.length using Nat.strongRecOn
    generalizing s with
  | ind length ih =>
      cases s with
      | nil => exact nil
      | cons b s =>
          rw [List.length_cons] at hLength
          by_cases hHides : escapes = true ∧ b = backslash
          · rcases hHides with ⟨hEscapes, rfl⟩
            cases s with
            | nil => exact last hEscapes
            | cons c s =>
                rw [List.length_cons] at hLength
                exact
                  pair c s hEscapes
                    (ih s.length (by omega) s rfl)
          · exact
              plain b s hHides (ih s.length (by omega) s rfl)

/- The quote that closes text over several lines is found. -/
theorem keepsPace_quotedWidth
    (hFeed : mark ≠ lineFeed)
    (hReturn : mark ≠ carriageReturn)
    (escapes : Bool)
    (passed passed' : Nat)
    (s : Bytes) :
    KeepsPace s passed passed'
      (quotedWidth mark escapes true passed s)
      (quotedWidth mark escapes true passed' (withReturns s)) := by
  have hBackslash : backslash ≠ lineFeed := by decide
  induction s using escape_induction escapes
    generalizing passed passed' with
  | nil => exact KeepsPace.here passed passed' [] []
  | last hEscapes =>
      subst hEscapes
      exact (KeepsPace.here _ _ [] []).cons hBackslash
  | pair c s hEscapes ih =>
      subst hEscapes
      rw [withReturns_cons_of_ne hBackslash,
        quotedWidth_backslash]
      apply KeepsPace.cons hBackslash
      by_cases hc : c = lineFeed
      · -- The return is hidden in place of the line feed, which
        -- is then passed over like any other byte.
        subst hc
        rw [withReturns_lineFeed, quotedWidth_backslash,
          quotedWidth_lineFeed hFeed]
        exact (ih _ _).lineFeed
      · rw [withReturns_cons_of_ne hc, quotedWidth_backslash]
        exact (ih _ _).cons hc
  | plain b s hHides ih =>
      by_cases hb : b = lineFeed
      · subst hb
        rw [withReturns_lineFeed, quotedWidth_lineFeed hFeed,
          quotedWidth_return hReturn, quotedWidth_lineFeed hFeed]
        exact (ih _ _).lineFeed
      · rw [withReturns_cons_of_ne hb, quotedWidth_cons hHides,
          quotedWidth_cons hHides]
        by_cases hMark : b = mark
        · rw [if_pos hMark, if_pos hMark]
          exact (KeepsPace.here _ _ [] s).cons hb
        · have hInside : ¬ (b = lineFeed ∧ true = false) :=
            fun h => hb h.1
          rw [if_neg hMark, if_neg hMark, if_neg hInside,
            if_neg hInside]
          exact (ih _ _).cons hb

/-
  Text of one line that holds no line feed ends at its quote,
  or behind the carriage return in place of the line feed.
-/
theorem endsAlike_quotedWidth
    (hFeed : mark ≠ lineFeed)
    (hReturn : mark ≠ carriageReturn)
    (escapes : Bool)
    (passed passed' : Nat)
    {s : Bytes}
    (hLine :
      ∀ n, quotedWidth mark escapes false passed s = passed + n →
        lineFeed ∉ s.take n) :
    EndsAlike s passed passed'
      (quotedWidth mark escapes false passed s)
      (quotedWidth mark escapes false passed'
        (withReturns s)) := by
  have hBackslash : backslash ≠ lineFeed := by decide
  have hStops :
      ∀ passed s,
        quotedWidth mark escapes false passed (lineFeed :: s) =
          passed := by
    intro passed s
    rw [quotedWidth_cons (fun h => hBackslash h.2.symm),
      if_neg (Ne.symm hFeed), if_pos ⟨rfl, rfl⟩]
  induction s using escape_induction escapes
    generalizing passed passed' with
  | nil => exact Or.inl (KeepsPace.here passed passed' [] [])
  | last hEscapes =>
      subst hEscapes
      exact
        Or.inl ((KeepsPace.here _ _ [] []).cons hBackslash)
  | pair c s hEscapes ih =>
      subst hEscapes
      rw [quotedWidth_backslash] at hLine ⊢
      have hNext :=
        ih (passed + 2) (passed' + 2)
          fun n hWidth hMem =>
            hLine (n + 2) (by omega) (by simp [hMem])
      rcases hNext.exists_width with ⟨n, hWidth⟩
      have hc : c ≠ lineFeed := by
        rintro rfl
        exact hLine (n + 2) (by omega) (by simp)
      rw [withReturns_cons_of_ne hBackslash,
        withReturns_cons_of_ne hc, quotedWidth_backslash]
      exact (hNext.cons hc).cons hBackslash
  | plain b s hHides ih =>
      by_cases hb : b = lineFeed
      · subst hb
        rw [withReturns_lineFeed, quotedWidth_return hReturn,
          hStops, hStops]
        exact Or.inr ⟨0, rfl, rfl, rfl⟩
      · rw [withReturns_cons_of_ne hb, quotedWidth_cons hHides]
        rw [quotedWidth_cons hHides] at hLine ⊢
        by_cases hMark : b = mark
        · rw [if_pos hMark, if_pos hMark]
          exact Or.inl ((KeepsPace.here _ _ [] s).cons hb)
        · have hInside : ¬ (b = lineFeed ∧ false = false) :=
            fun h => hb h.1
          rw [if_neg hMark, if_neg hInside] at hLine ⊢
          rw [if_neg hMark, if_neg hInside]
          apply EndsAlike.cons hb
          apply ih
          intro n hWidth hMem
          exact hLine (n + 1) (by omega) (by simp [hMem])

end Quoted

------------------------------------------------------------
-- Character Literals
------------------------------------------------------------

section Literals

variable {b : UInt8}
variable {rest : Bytes}

/- An escape ends at an apostrophe before the end of its line. -/
theorem toApostrophe?_withReturns
    (passed n : Nat)
    (s : Bytes) :
    toApostrophe? passed ((withReturns s).take n) =
      toApostrophe? passed (s.take n) := by
  have hFeed :
      ∀ passed s, toApostrophe? passed (lineFeed :: s) = none := by
    intro passed s
    rw [toApostrophe?, if_neg (by decide), if_pos rfl]
  induction s generalizing passed n with
  | nil => rfl
  | cons b s ih =>
      cases n with
      | zero => rfl
      | succ n =>
          by_cases hb : b = lineFeed
          · subst hb
            rw [withReturns_lineFeed, List.take_succ_cons,
              List.take_succ_cons, hFeed, toApostrophe?,
              if_neg (by decide), if_neg (by decide)]
            cases n with
            | zero => rfl
            | succ n => rw [List.take_succ_cons, hFeed]
          · rw [withReturns_cons_of_ne hb, List.take_succ_cons,
              List.take_succ_cons, toApostrophe?, toApostrophe?,
              ih]

/- An escape is a backslash, a byte and a short rest. -/
theorem characterLiteralWidth?_backslash
    (c : UInt8)
    (s : Bytes) :
    characterLiteralWidth? (backslash :: c :: s) =
      (toApostrophe? 0 (s.take escapeWindow)).map (· + 4) := by
  rfl

/- An escaped line feed is none once it has its return. -/
theorem characterLiteralWidth?_escape
    (s : Bytes) :
    characterLiteralWidth?
        (withReturns (backslash :: lineFeed :: s)) = none := by
  rfl

/-
  A literal is read as before, unless its first byte leads a
  longer character that a line feed cuts off, or an escape
  hides a line feed.
-/
theorem characterLiteralWidth?_withReturns
    (hLead : lineFeed ∉ rest.take (characterWidth b - 1))
    (hEscape : b = backslash → rest.head? ≠ some lineFeed) :
    characterLiteralWidth? (withReturns (b :: rest)) =
      characterLiteralWidth? (b :: rest) := by
  by_cases hb : b = lineFeed
  · subst hb
    rfl
  · rw [withReturns_cons_of_ne hb]
    by_cases hBackslash : b = backslash
    · subst hBackslash
      have hHead := hEscape rfl
      cases rest with
      | nil => rfl
      | cons c rest =>
          have hc : c ≠ lineFeed := by simpa using hHead
          rw [withReturns_cons_of_ne hc,
            characterLiteralWidth?_backslash,
            characterLiteralWidth?_backslash,
            toApostrophe?_withReturns]
    · have hAfter :
          ((withReturns rest).drop (characterWidth b - 1)).head? =
              some apostrophe ↔
            (rest.drop (characterWidth b - 1)).head? =
              some apostrophe := by
        rw [drop_withReturns hLead]
        exact
          head?_withReturns_eq_some_iff (by decide) (by decide)
      simp only [characterLiteralWidth?, hBackslash, if_false,
        hAfter]

end Literals

------------------------------------------------------------
-- Comments
------------------------------------------------------------

section Comments

variable {s : Bytes}

/- The slashes that lead stay. -/
theorem lineCommentKind_withReturns
    (s : Bytes) :
    lineCommentKind (withReturns s) = lineCommentKind s := by
  have hThree :
      lineOpener ++ [slash] <+: withReturns s ↔
        lineOpener ++ [slash] <+: s :=
    prefix_withReturns_iff (by decide)
  have hFour :
      lineOpener ++ lineOpener <+: withReturns s ↔
        lineOpener ++ lineOpener <+: s :=
    prefix_withReturns_iff (by decide)
  unfold lineCommentKind
  simp only [ List.isPrefixOf_iff_prefix, hThree, hFour]

/- So do the first bytes of a block comment. -/
theorem blockCommentKind_withReturns
    (s : Bytes) :
    blockCommentKind (withReturns s) = blockCommentKind s := by
  have hStars :
      blockOpener ++ [star] <+: withReturns s ↔
        blockOpener ++ [star] <+: s :=
    prefix_withReturns_iff (by decide)
  have hClosed :
      blockOpener ++ blockCloser <+: withReturns s ↔
        blockOpener ++ blockCloser <+: s :=
    prefix_withReturns_iff (by decide)
  unfold blockCommentKind
  simp only [ List.isPrefixOf_iff_prefix, hStars, hClosed]

/- A line comment leaves out the return that is put in. -/
theorem lineCommentWidth_withReturns
    (hReturn : carriageReturn ∉ s) :
    lineCommentWidth (withReturns s) = lineCommentWidth s := by
  by_cases hFeed : lineFeed ∈ s
  · rcases List.eq_append_cons_of_mem hFeed with
      ⟨t, rest, rfl, hNot⟩
    have hLine :
        (t ++ lineFeed :: rest).takeWhile (· != lineFeed) = t :=
      (SourceFile.firstLine_append hNot _).trans (by
        simp [SourceFile.firstLine])
    have hNot' : lineFeed ∉ t ++ [carriageReturn] := by
      rw [List.mem_append, not_or]
      exact ⟨hNot, by decide⟩
    have hLine' :
        (withReturns (t ++ lineFeed :: rest)).takeWhile
            (· != lineFeed) =
          t ++ [carriageReturn] := by
      rw [withReturns_append_of_not_mem hNot,
        withReturns_lineFeed, List.append_cons]
      exact
        (SourceFile.firstLine_append hNot' _).trans (by
          simp [SourceFile.firstLine])
    have hLast : t.getLast? ≠ some carriageReturn := by
      intro hEnd
      have hMem := List.mem_of_getLast? hEnd
      exact hReturn (List.mem_append_left _ hMem)
    unfold lineCommentWidth
    rw [hLine, hLine']
    simp [hLast]
  · rw [withReturns_eq_self hFeed]

end Comments

end Lexer

end CommentLint
