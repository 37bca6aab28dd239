import CommentLint.Proofs.Lexer.Lexeme
import Mathlib.Tactic.Common

/-
  The lexical rules determine the lexer.

  A rule leaves no choice of the kind or the end of a token,
  so that the tokens of the lexer are exactly the lexemes.

  Key results include:
    * `Lexer.EndsFrom.unique`
    * `Lexer.EndsBalanced.unique`
    * `Lexer.token?_eq_some_iff`
-/

namespace CommentLint

namespace Lexer

open Ascii

variable {s : Bytes}
variable {width width' : Nat}
variable {kind kind' : SpanKind}

------------------------------------------------------------
-- Ends
------------------------------------------------------------

/- There is one first place with a property. -/
theorem IsFirstFrom.unique
    {start m n : Nat}
    {P : Nat → Prop}
    (hm : IsFirstFrom start P m)
    (hn : IsFirstFrom start P n) :
    m = n := by
  rcases hm with ⟨hFromM, hAtM, hBeforeM⟩
  rcases hn with ⟨hFromN, hAtN, hBeforeN⟩
  rcases Nat.lt_trichotomy m n with hLt | hEq | hLt
  · exact absurd hAtM (hBeforeN m hFromM hLt)
  · exact hEq
  · exact absurd hAtN (hBeforeM n hFromN hLt)

/- A search has one end. -/
theorem EndsFrom.unique
    {start total : Nat}
    {P : Nat → Prop}
    {past : Nat → Nat}
    (h : EndsFrom start P past total width)
    (h' : EndsFrom start P past total width') :
    width = width' := by
  cases h with
  | found hFirst =>
      cases h' with
      | found hOther =>
          have hPlace := hFirst.unique hOther
          rw [hPlace]
      | missing hNone =>
          exact absurd hFirst.2.1 (hNone _ hFirst.1)
  | missing hNone =>
      cases h' with
      | found hOther =>
          exact absurd hOther.2.1 (hNone _ hOther.1)
      | missing _ => rfl

/- A line has one end. -/
theorem EndsLine.unique
    (h : EndsLine s width)
    (h' : EndsLine s width') :
    width = width' := by
  rcases h with ⟨m, hm, rfl⟩
  rcases h' with ⟨n, hn, rfl⟩
  have hPlace := hm.unique hn
  rw [hPlace]

/- One closer at most closes with a number left behind it. -/
theorem ClosesAt.unique
    {marks : List (Nat × BlockMark)}
    {k m n : Nat}
    (hm : ClosesAt marks k m)
    (hn : ClosesAt marks k n) :
    m = n := by
  induction marks generalizing k with
  | nil => exact absurd hm ClosesAt.not_nil
  | cons mark marks ih =>
      rcases mark with ⟨p, _ | _⟩
      · rw [ClosesAt.opener_cons_iff] at hm hn
        exact ih hm hn
      · cases k with
        | zero =>
            rw [ClosesAt.closer_cons_zero_iff] at hm hn
            rw [hm, hn]
        | succ k =>
            rw [ClosesAt.closer_cons_succ_iff] at hm hn
            exact ih hm hn

/- One closer at most balances the opener in front. -/
theorem Balances.unique
    {m n : Nat}
    (hm : Balances s m)
    (hn : Balances s n) :
    m = n := by
  rcases hm with ⟨inner, rest, hMarks, hPaired⟩
  rcases hn with ⟨inner', rest', hMarks', hPaired'⟩
  rw [hMarks] at hMarks'
  have hRest := List.tail_eq_of_cons_eq hMarks'
  have hCloses :
      ClosesAt (inner ++ (m, .closer) :: rest) 0 m :=
    ⟨inner, rest, rfl, Leaves.none hPaired⟩
  have hCloses' :
      ClosesAt (inner ++ (m, .closer) :: rest) 0 n :=
    ⟨inner', rest', hRest, Leaves.none hPaired'⟩
  exact hCloses.unique hCloses'

/- A balanced comment has one end. -/
theorem EndsBalanced.unique
    (h : EndsBalanced s width)
    (h' : EndsBalanced s width') :
    width = width' := by
  rcases h with ⟨m, hm, rfl⟩ | ⟨hNone, rfl⟩
  · rcases h' with ⟨n, hn, rfl⟩ | ⟨hNone', rfl⟩
    · rw [hm.unique hn]
    · exact absurd hm (hNone' m)
  · rcases h' with ⟨n, hn, rfl⟩ | ⟨hNone', rfl⟩
    · exact absurd hn (hNone n)
    · rfl

------------------------------------------------------------
-- Kinds
------------------------------------------------------------

/- A line comment has one kind. -/
theorem LineKind.unique
    (h : LineKind s kind)
    (h' : LineKind s kind') :
    kind = kind' := by
  cases h with
  | doc hThree =>
      cases h' with
      | doc _ => rfl
      | plain hOther => exact absurd hThree hOther
  | plain hOther =>
      cases h' with
      | doc hThree => exact absurd hThree hOther
      | plain _ => rfl

/- A block comment has one kind. -/
theorem BlockKind.unique
    (h : BlockKind s kind)
    (h' : BlockKind s kind') :
    kind = kind' := by
  cases h with
  | doc hStars hOpen =>
      cases h' with
      | doc _ _ => rfl
      | single hNone => exact absurd hStars hNone
      | closed hClosed => exact absurd hClosed hOpen
  | single hNone =>
      cases h' with
      | doc hStars _ => exact absurd hStars hNone
      | single _ => rfl
      | closed _ => rfl
  | closed hClosed =>
      cases h' with
      | doc _ hOpen => exact absurd hClosed hOpen
      | single _ => rfl
      | closed _ => rfl

------------------------------------------------------------
-- Lexemes
------------------------------------------------------------

/- A block comment is taken with the kind and the end it has. -/
theorem token?_blockComment
    {d : Dialect}
    (hOpener : blockOpener <+: s)
    (hKind : BlockKind s kind)
    (hWidth : blockCommentWidth d.nestedBlocks s = width) :
    token? d s = some (kind, width) := by
  have hFound := blockKind_blockCommentKind s
  rcases hOpener with ⟨rest, rfl⟩
  rw [token?_slash_star, hFound.unique hKind, hWidth]

/- Quoted text is taken with the end it has. -/
theorem quotedWidth_eq
    {mark : UInt8}
    {escapes multiline : Bool}
    {rest : Bytes}
    (hMark : mark ≠ backslash)
    (h :
      EndsQuoted mark escapes multiline 1 (mark :: rest)
        width) :
    quotedWidth mark escapes multiline 1 rest = width :=
  EndsFrom.unique (endsQuoted_cons hMark rest) h

/- Every lexeme is taken by the lexer. -/
theorem Lexeme.token?_eq_some
    {d : Dialect}
    (h : Lexeme d s kind width) :
    token? d s = some (kind, width) := by
  cases h with
  | lineComment hOpener hKind hEnds =>
      have hFoundKind := lineKind_lineCommentKind s
      have hFoundEnd := endsLine_lineCommentWidth s
      rcases hOpener with ⟨rest, rfl⟩
      rw [token?_slashes, hFoundKind.unique hKind,
        hFoundEnd.unique hEnds]
  | flatBlock hFlat hOpener hKind hEnds =>
      apply token?_blockComment hOpener hKind
      have hFound :
          EndsThrough blockCloser 2 s
            (blockCommentWidth false s) :=
        endsThrough_drop (by simp [blockCloser]) hOpener
      rw [hFlat]
      exact EndsFrom.unique hFound hEnds
  | nestedBlock hNested hOpener hKind hEnds =>
      apply token?_blockComment hOpener hKind
      rw [hNested]
      exact
        EndsBalanced.unique
          (endsBalanced_blockCommentWidth hOpener) hEnds
  | tripleQuoted hOpener hEnds =>
      have hFound :
          EndsThrough tripleQuote 3 s
            (widthThrough tripleQuote 3 (s.drop 3)) :=
        endsThrough_drop (by simp [tripleQuote]) hOpener
      have hWidth := EndsFrom.unique hFound hEnds
      rcases hOpener with ⟨rest, rfl⟩
      rw [← hWidth]
      rfl
  | quoted hOpener hSingle hEnds =>
      rcases exists_rest hOpener with ⟨rest, rfl⟩
      have hWidth := quotedWidth_eq (by decide) hEnds
      rw [token?_quote, if_neg, hWidth]
      intro hTriple
      exact hSingle ( List.isPrefixOf_iff_prefix.mp hTriple)
  | apostrophes hText hOpener hEnds =>
      rcases exists_rest hOpener with ⟨rest, rfl⟩
      have hWidth := quotedWidth_eq (by decide) hEnds
      simp only [token?_apostrophe, hText, hWidth]
  | character hCharacter hOpener hWidth =>
      rcases exists_rest hOpener with ⟨rest, rfl⟩
      rw [List.drop_one, List.tail_cons] at hWidth
      simp only [token?_apostrophe, hCharacter, hWidth,
        Option.map_some]
  | backticks hEscaped hOpener hEnds =>
      rcases exists_rest hOpener with ⟨rest, rfl⟩
      have hWidth := quotedWidth_eq (by decide) hEnds
      simp only [token?_backtick, hEscaped, hWidth]
  | rawBackticks hRaw hOpener hEnds =>
      rcases exists_rest hOpener with ⟨rest, rfl⟩
      have hWidth := quotedWidth_eq (by decide) hEnds
      simp only [token?_backtick, hRaw, hWidth]

/- The tokens of the lexer are the lexemes of the dialect. -/
theorem token?_eq_some_iff
    {d : Dialect} :
    token? d s = some (kind, width) ↔
      Lexeme d s kind width := by
  constructor
  · intro h
    exact lexeme_of_token? h
  · intro h
    exact h.token?_eq_some

end Lexer

end CommentLint
