import CommentLint.Proofs.Lexer.LexemeBounds
import CommentLint.Proofs.Lexer.LexemeUnique
import Mathlib.Data.Nat.Find
import Mathlib.Tactic.Common

/-
  Nested block comments as a grammar.

  A comment that nests is an opener, any number of comments
  and other bytes, and a closer.  As a parsing expression,
  with ordered choice and greedy repetition, that grammar
  takes exactly what the depth counter takes, and fails where
  the counter runs to the end of the bytes.

  Key definitions include:
    * `ParsingExpr`
    * `Parses`
    * `Lexer.nestedComment`
    * `Lexer.blockCommentEnd`
    * `Lexer.OpensBeforeClose`

  Key results include:
    * `Parses.unique`
    * `Lexer.ContentStops.of_bytes`
    * `Lexer.nestedWidth_lower`
    * `Lexer.blockCommentEnd_follows_grammar`
-/

namespace CommentLint

------------------------------------------------------------
-- Parsing Expressions
------------------------------------------------------------

/-
  An expression that recognizes bytes from the left; `rule`
  stands for the one rule of its grammar.
-/
inductive ParsingExpr where
| rule
| anyByte
| literal (bytes : Bytes)
| seq (first second : ParsingExpr)
| choice (first second : ParsingExpr)
| star (item : ParsingExpr)
| not (item : ParsingExpr)
deriving DecidableEq, Repr

/-
  What an expression does at the start of bytes, under a rule:
  it leaves a rest, or it fails and there is none.  A choice
  tries its second part only when the first fails, and a
  repetition goes on for as long as its item does not fail.
-/
inductive Parses
    (body : ParsingExpr) :
    ParsingExpr → Bytes → Option Bytes → Prop where
| rule {s : Bytes} {rest? : Option Bytes} :
    Parses body body s rest? →
    Parses body .rule s rest?
| anyByte {b : UInt8} {s : Bytes} :
    Parses body .anyByte (b :: s) (some s)
| anyByteFails :
    Parses body .anyByte [] none
| literal {bytes s : Bytes} :
    Parses body (.literal bytes) (bytes ++ s) (some s)
| literalFails {bytes s : Bytes} :
    ¬ bytes <+: s →
    Parses body (.literal bytes) s none
| seq {e f : ParsingExpr} {s t : Bytes} {rest? : Option Bytes} :
    Parses body e s (some t) →
    Parses body f t rest? →
    Parses body (.seq e f) s rest?
| seqFails {e f : ParsingExpr} {s : Bytes} :
    Parses body e s none →
    Parses body (.seq e f) s none
| choice {e f : ParsingExpr} {s t : Bytes} :
    Parses body e s (some t) →
    Parses body (.choice e f) s (some t)
| choiceNext
    {e f : ParsingExpr} {s : Bytes} {rest? : Option Bytes} :
    Parses body e s none →
    Parses body f s rest? →
    Parses body (.choice e f) s rest?
| star {e : ParsingExpr} {s t : Bytes} {rest? : Option Bytes} :
    Parses body e s (some t) →
    Parses body (.star e) t rest? →
    Parses body (.star e) s rest?
| starStops {e : ParsingExpr} {s : Bytes} :
    Parses body e s none →
    Parses body (.star e) s (some s)
| not {e : ParsingExpr} {s : Bytes} :
    Parses body e s none →
    Parses body (.not e) s (some s)
| notFails {e : ParsingExpr} {s t : Bytes} :
    Parses body e s (some t) →
    Parses body (.not e) s none

namespace Parses

variable {body e : ParsingExpr}
variable {s : Bytes}
variable {rest? other? : Option Bytes}

/- An expression does one thing at the start of bytes. -/
theorem unique
    (h : Parses body e s rest?)
    (hOther : Parses body e s other?) :
    rest? = other? := by
  induction h generalizing other? with
  | rule _ ih =>
      cases hOther with
      | rule hBody => exact ih hBody
  | anyByte =>
      cases hOther
      rfl
  | anyByteFails =>
      cases hOther
      rfl
  | @literal bytes s =>
      generalize hWhole : bytes ++ s = whole at hOther
      cases hOther with
      | literal => rw [List.append_cancel_left hWhole]
      | literalFails hNot =>
          exact absurd ⟨s, hWhole⟩ hNot
  | literalFails hNot =>
      cases hOther with
      | literal => exact absurd (List.prefix_append _ _) hNot
      | literalFails _ => rfl
  | seq _ _ ihFirst ihSecond =>
      cases hOther with
      | seq hFirst hSecond =>
          cases ihFirst hFirst
          exact ihSecond hSecond
      | seqFails hFirst => cases ihFirst hFirst
  | seqFails _ ih =>
      cases hOther with
      | seq hFirst _ => cases ih hFirst
      | seqFails _ => rfl
  | choice _ ih =>
      cases hOther with
      | choice hFirst => exact ih hFirst
      | choiceNext hFirst _ => cases ih hFirst
  | choiceNext _ _ ihFirst ihSecond =>
      cases hOther with
      | choice hFirst => cases ihFirst hFirst
      | choiceNext _ hSecond => exact ihSecond hSecond
  | star _ _ ihItem ihMore =>
      cases hOther with
      | star hItem hMore =>
          cases ihItem hItem
          exact ihMore hMore
      | starStops hItem => cases ihItem hItem
  | starStops _ ih =>
      cases hOther with
      | star hItem _ => cases ih hItem
      | starStops _ => rfl
  | not _ ih =>
      cases hOther with
      | not _ => rfl
      | notFails hItem => cases ih hItem
  | notFails _ ih =>
      cases hOther with
      | not hItem => cases ih hItem
      | notFails _ => rfl

end Parses

namespace Lexer

open Ascii

------------------------------------------------------------
-- The Grammar of Comments
------------------------------------------------------------

/- A byte that begins neither an opener nor a closer. -/
def otherByte : ParsingExpr :=
  .seq (.not (.literal blockOpener))
    (.seq (.not (.literal blockCloser)) .anyByte)

/- What stands between the opener and the closer of a comment. -/
def commentContent : ParsingExpr :=
  .star (.choice .rule otherByte)

/-
  The rule of a comment that nests:
  `Comment <- '/*' (Comment / (!'/*' !'*/' any byte))* '*/'`.
-/
def nestedComment : ParsingExpr :=
  .seq (.literal blockOpener)
    (.seq commentContent (.literal blockCloser))

/- What the rule of a nested comment does at the start of bytes. -/
def ParsesComment
    (s : Bytes)
    (rest? : Option Bytes) : Prop :=
  Parses nestedComment .rule s rest?

/- What the content of a nested comment leaves. -/
def ParsesContent
    (s rest : Bytes) : Prop :=
  Parses nestedComment commentContent s (some rest)

section Grammar

variable {s t : Bytes}
variable {b : UInt8}

/- Nothing but an opener begins a comment. -/
theorem parsesComment_fails
    (h : ¬ blockOpener <+: s) :
    ParsesComment s none :=
  .rule (.seqFails (.literalFails h))

/- Content that stops at a closer makes a comment. -/
theorem ParsesContent.comment
    (h : ParsesContent s (blockCloser ++ t)) :
    ParsesComment (blockOpener ++ s) (some t) :=
  .rule (.seq .literal (.seq h .literal))

/- Content that stops elsewhere makes none. -/
theorem ParsesContent.comment_fails
    (h : ParsesContent s t)
    (hClose : ¬ blockCloser <+: t) :
    ParsesComment (blockOpener ++ s) none :=
  .rule (.seq .literal (.seq h (.literalFails hClose)))

/- The content goes on behind a comment. -/
theorem ParsesContent.after_comment
    {u : Bytes}
    (hComment : ParsesComment s (some t))
    (h : ParsesContent t u) :
    ParsesContent s u :=
  .star (.choice hComment) h

/- The content goes on behind a byte that begins no mark. -/
theorem ParsesContent.after_byte
    (hOpen : ¬ blockOpener <+: b :: s)
    (hClose : ¬ blockCloser <+: b :: s)
    (h : ParsesContent s t) :
    ParsesContent (b :: s) t := by
  have hByte : Parses nestedComment otherByte (b :: s) (some s) :=
    .seq (.not (.literalFails hOpen))
      (.seq (.not (.literalFails hClose)) .anyByte)
  exact .star (.choiceNext (parsesComment_fails hOpen) hByte) h

/- The content stops at the end of the bytes. -/
theorem parsesContent_nil : ParsesContent [] [] := by
  have hByte : Parses nestedComment otherByte [] none :=
    .seq (.not (.literalFails (by decide)))
      (.seq (.not (.literalFails (by decide))) .anyByteFails)
  exact
    .starStops
      (.choiceNext (parsesComment_fails (by decide)) hByte)

/- The content stops at a closer. -/
theorem parsesContent_closer :
    ParsesContent (blockCloser ++ s) (blockCloser ++ s) := by
  have hOpen : ¬ blockOpener <+: blockCloser ++ s := by
    simp [blockOpener, blockCloser, Ascii.slash, Ascii.star]
  have hByte :
      Parses nestedComment otherByte (blockCloser ++ s) none :=
    .seq (.not (.literalFails hOpen)) (.seqFails (.notFails .literal))
  exact
    .starStops (.choiceNext (parsesComment_fails hOpen) hByte)

/- The content stops at an opener that no comment begins with. -/
theorem parsesContent_opener
    (h : ParsesComment (blockOpener ++ s) none) :
    ParsesContent (blockOpener ++ s) (blockOpener ++ s) :=
  .starStops (.choiceNext h (.seqFails (.notFails .literal)))

end Grammar

------------------------------------------------------------
-- Content and the Depth Counter
------------------------------------------------------------

/-
  Where the content of a comment stops.  At a closer, the
  depth counter has come there with the depth it had; in
  front of anything else, or at the end, it finds no closer
  for the comments that are open.
-/
inductive ContentStops (s : Bytes) : Prop where
| closer {taken rest : Bytes} :
    s = taken ++ (blockCloser ++ rest) →
    ParsesContent s (blockCloser ++ rest) →
    (∀ depth passed,
      nestedWidth (depth + 1) passed s =
        nestedWidth (depth + 1) (passed + taken.length)
          (blockCloser ++ rest)) →
    ContentStops s
| elsewhere {rest : Bytes} :
    ParsesContent s rest →
    ¬ blockCloser <+: rest →
    (∀ depth passed,
      nestedWidth (depth + 1) passed s = passed + s.length) →
    ContentStops s

namespace ContentStops

variable {s t : Bytes}

/- The content stops where it does behind a comment in front. -/
theorem after_comment
    (hComment : ParsesComment (s ++ t) (some t))
    (hWidth :
      ∀ depth passed,
        nestedWidth (depth + 1) passed (s ++ t) =
          nestedWidth (depth + 1) (passed + s.length) t)
    (h : ContentStops t) :
    ContentStops (s ++ t) := by
  cases h with
  | closer hTake hContent hCounter =>
      subst hTake
      refine
        closer (List.append_assoc _ _ _).symm
          (hContent.after_comment hComment) ?_
      intro depth passed
      rw [hWidth, hCounter, List.length_append, Nat.add_assoc]
  | elsewhere hContent hClose hCounter =>
      refine elsewhere (hContent.after_comment hComment) hClose ?_
      intro depth passed
      rw [hWidth, hCounter, List.length_append, Nat.add_assoc]

/- The content stops where it does behind a byte in front. -/
theorem after_byte
    {b : UInt8}
    (hOpen : ¬ blockOpener <+: b :: s)
    (hClose : ¬ blockCloser <+: b :: s)
    (h : ContentStops s) :
    ContentStops (b :: s) := by
  have hWidth := nestedWidth_cons_of_not_stands hOpen hClose
  cases h with
  | @closer taken rest hTake hContent hCounter =>
      have hTake' : b :: s = (b :: taken) ++ (blockCloser ++ rest) := by
        rw [hTake]
        rfl
      refine
        closer hTake' (hContent.after_byte hOpen hClose) ?_
      intro depth passed
      rw [hWidth, hCounter, List.length_cons]
      congr 1
      omega
  | elsewhere hContent hEnd hCounter =>
      refine
        elsewhere (hContent.after_byte hOpen hClose) hEnd ?_
      intro depth passed
      rw [hWidth, hCounter, List.length_cons]
      omega

/-
  The content stops somewhere.  The induction is on the number
  of bytes, since the content goes on behind an inner comment.
-/
theorem of_bytes (s : Bytes) : ContentStops s := by
  induction hSize : s.length using Nat.strongRecOn
    generalizing s with
  | ind size ih =>
      subst hSize
      by_cases hOpen : blockOpener <+: s
      · rcases hOpen with ⟨inner, rfl⟩
        have hWidth :
            ∀ depth passed,
              nestedWidth (depth + 1) passed
                  (blockOpener ++ inner) =
                nestedWidth (depth + 2) (passed + 2) inner :=
          fun depth passed => nestedWidth_opener _ _ _
        have hInner :
            inner.length < (blockOpener ++ inner).length := by
          have hTwo : blockOpener.length = 2 := rfl
          rw [List.length_append]
          omega
        cases ih inner.length hInner inner rfl with
        | @closer taken rest hTake hContent hCounter =>
            have hBytes :
                blockOpener ++ inner =
                  (blockOpener ++ taken ++ blockCloser) ++ rest := by
              simp [hTake]
            rw [hBytes]
            apply after_comment
            · rw [← hBytes]
              exact hContent.comment
            · intro depth passed
              have hCloser :
                  nestedWidth (depth + 2)
                      (passed + 2 + taken.length)
                      (blockCloser ++ rest) =
                    nestedWidth (depth + 1)
                      (passed + 2 + taken.length + 2) rest := by
                refine (nestedWidth_closer _ _ _).trans ?_
                exact if_neg (by omega)
              rw [← hBytes, hWidth, hCounter, hCloser]
              congr 1
              simp [blockOpener, blockCloser]
              omega
            · have hLength := congrArg List.length hBytes
              simp only [List.length_append] at hLength hInner
              refine ih rest.length ?_ rest rfl
              rw [List.length_append]
              omega
        | elsewhere hContent hClose hCounter =>
            refine
              elsewhere
                (parsesContent_opener
                  (hContent.comment_fails hClose))
                (by
                  simp [blockOpener, blockCloser, Ascii.slash,
                    Ascii.star])
                ?_
            intro depth passed
            rw [hWidth, hCounter, List.length_append]
            simp [blockOpener]
            omega
      · by_cases hClose : blockCloser <+: s
        · rcases hClose with ⟨rest, rfl⟩
          exact
            closer (List.nil_append _).symm parsesContent_closer
              (fun _ _ => rfl)
        · cases s with
          | nil =>
              exact
                elsewhere parsesContent_nil hClose
                  (fun _ _ => rfl)
          | cons b s =>
              exact
                (ih s.length (by simp) s rfl).after_byte hOpen
                  hClose

end ContentStops

/-
  The rule of comments takes what the depth counter takes, and
  where it fails the counter takes everything.
-/
theorem parsesComment_blockCommentWidth
    (s : Bytes) :
    ParsesComment (blockOpener ++ s)
        (some
          ((blockOpener ++ s).drop
            (blockCommentWidth true (blockOpener ++ s)))) ∨
      (ParsesComment (blockOpener ++ s) none ∧
        blockCommentWidth true (blockOpener ++ s) =
          (blockOpener ++ s).length) := by
  have hWidth :
      blockCommentWidth true (blockOpener ++ s) =
        nestedWidth 1 2 s := rfl
  rw [hWidth]
  cases ContentStops.of_bytes s with
  | @closer taken rest hTake hContent hCounter =>
      left
      have hCloser :
          nestedWidth 1 2 s = 2 + taken.length + 2 :=
        (hCounter 0 2).trans (nestedWidth_closer _ _ _)
      have hBytes :
          blockOpener ++ s =
            (blockOpener ++ taken ++ blockCloser) ++ rest := by
        simp [hTake]
      have hRest :
          (blockOpener ++ s).drop (2 + taken.length + 2) = rest := by
        rw [hBytes]
        apply List.drop_left'
        simp [blockOpener, blockCloser]
        omega
      rw [hCloser, hRest]
      exact hContent.comment
  | elsewhere hContent hClose hCounter =>
      right
      refine ⟨hContent.comment_fails hClose, ?_⟩
      rw [hCounter 0 2]
      simp [blockOpener]
      omega

------------------------------------------------------------
-- Flat and Nested Comments
------------------------------------------------------------

/-
  The depth counter passes two bytes for every comment that is
  open, behind the bytes in which no closer stands, unless it
  takes all bytes.
-/
theorem nestedWidth_lower
    {depth n : Nat}
    {s : Bytes}
    (passed : Nat)
    (hDepth : 1 ≤ depth)
    (hNone : ∀ i, i < n → ¬ blockCloser <+: s.drop i) :
    passed + n + 2 * depth ≤ nestedWidth depth passed s ∨
      nestedWidth depth passed s = passed + s.length := by
  have hHere :
      ∀ {n : Nat} {s : Bytes},
        (∀ i, i < n →
          ¬ blockCloser <+:
            (Ascii.star :: Ascii.slash :: s).drop i) →
          n = 0 := by
    intro n s hNone
    rcases Nat.eq_zero_or_pos n with hZero | hPos
    · exact hZero
    · exact absurd (List.prefix_append blockCloser s)
        (hNone 0 hPos)
  induction depth, passed, s using nestedWidth.induct
    generalizing n with
  | case1 => exact Or.inr rfl
  | case2 => exact Or.inr rfl
  | case3 depth passed a b s hOpener ih =>
      rcases hOpener with ⟨rfl, rfl⟩
      have hBehind :
          ∀ i, i < n - 2 → ¬ blockCloser <+: s.drop i :=
        fun i hLt => hNone (i + 2) (by omega)
      rw [nestedWidth_opener]
      simp only [List.length_cons]
      rcases ih (by omega) hBehind with hLow | hAll
      · left
        omega
      · right
        omega
  | case4 depth passed a b s _ hCloser hLast =>
      rcases hCloser with ⟨rfl, rfl⟩
      have hZero := hHere hNone
      rw [nestedWidth_closer, if_pos hLast]
      left
      omega
  | case5 depth passed a b s _ hCloser hMore ih =>
      rcases hCloser with ⟨rfl, rfl⟩
      have hZero := hHere hNone
      rw [nestedWidth_closer, if_neg hMore]
      simp only [List.length_cons]
      rcases ih (n := 0) (by omega) (by omega) with hLow | hAll
      · left
        omega
      · right
        omega
  | case6 depth passed a b s hOpener hCloser ih =>
      have hBehind :
          ∀ i, i < n - 1 → ¬ blockCloser <+: (b :: s).drop i :=
        fun i hLt => hNone (i + 1) (by omega)
      rw [nestedWidth, if_neg hOpener, if_neg hCloser]
      simp only [List.length_cons] at ih ⊢
      rcases ih hDepth hBehind with hLow | hAll
      · left
        omega
      · right
        omega

/- The depth counter passes over bytes in which no mark stands. -/
theorem nestedWidth_skip
    {s : Bytes}
    {n : Nat}
    (depth passed : Nat)
    (hIn : n ≤ s.length)
    (hNone :
      ∀ i, i < n →
        ¬ blockOpener <+: s.drop i ∧ ¬ blockCloser <+: s.drop i) :
    nestedWidth depth passed s =
      nestedWidth depth (passed + n) (s.drop n) := by
  induction n generalizing passed s with
  | zero => rfl
  | succ n ih =>
      cases s with
      | nil => cases hIn
      | cons b s =>
          rcases hNone 0 (Nat.succ_pos n) with ⟨hOpen, hClose⟩
          have hBehind :
              ∀ i, i < n →
                ¬ blockOpener <+: s.drop i ∧
                  ¬ blockCloser <+: s.drop i :=
            fun i hLt => hNone (i + 1) (Nat.succ_lt_succ hLt)
          rw [nestedWidth_cons_of_not_stands hOpen hClose,
            ih (passed + 1) (Nat.le_of_succ_le_succ hIn) hBehind]
          simp only [List.drop_succ_cons]
          congr 1
          omega

/-
  Behind the opener of a comment, another one stands before
  the first closer.
-/
def OpensBeforeClose (s : Bytes) : Prop :=
  ∃ p q,
    IsFirstFrom 2 (fun n => blockCloser <+: s.drop n) q ∧
      2 ≤ p ∧ p < q ∧ blockOpener <+: s.drop p

section Widths

variable {s : Bytes}

/- A flat comment ends behind the first closer, or at the end. -/
theorem flatCommentWidth_cases
    (s : Bytes) :
    (∃ n,
      IsFirstFrom 2
          (fun m => blockCloser <+: (blockOpener ++ s).drop m) n ∧
        blockCommentWidth false (blockOpener ++ s) = n + 2) ∨
      ((∀ n, 2 ≤ n →
          ¬ blockCloser <+: (blockOpener ++ s).drop n) ∧
        blockCommentWidth false (blockOpener ++ s) =
          (blockOpener ++ s).length) := by
  have hEnds :
      EndsThrough blockCloser 2 (blockOpener ++ s)
        (blockCommentWidth false (blockOpener ++ s)) :=
    endsThrough_widthThrough (by decide) blockOpener s
  generalize blockCommentWidth false (blockOpener ++ s) = width
    at hEnds
  cases hEnds with
  | found hFirst => exact Or.inl ⟨_, hFirst, rfl⟩
  | missing hNone => exact Or.inr ⟨hNone, rfl⟩

/- A nested comment takes no more bytes than there are. -/
theorem nestedCommentWidth_le
    (s : Bytes) :
    blockCommentWidth true (blockOpener ++ s) ≤
      (blockOpener ++ s).length :=
  (EndsBalanced.endsInside (by simp [blockOpener])
    (endsBalanced_blockCommentWidth
      (List.prefix_append blockOpener s))).le

/-
  A nested comment takes all bytes, or it ends behind the
  bytes in which no closer stands and one closer.
-/
theorem nestedCommentWidth_lower
    {n : Nat}
    (hFrom : 2 ≤ n)
    (hNone :
      ∀ m, 2 ≤ m → m < n →
        ¬ blockCloser <+: (blockOpener ++ s).drop m) :
    n + 2 ≤ blockCommentWidth true (blockOpener ++ s) ∨
      blockCommentWidth true (blockOpener ++ s) =
        (blockOpener ++ s).length := by
  have hBehind :
      ∀ i, i < n - 2 → ¬ blockCloser <+: s.drop i :=
    fun i hLt => hNone (i + 2) (by omega) (by omega)
  have hLength : (blockOpener ++ s).length = 2 + s.length := by
    simp [blockOpener]
    omega
  have hLower := nestedWidth_lower 2 (Nat.le_refl 1) hBehind
  rw [hLength]
  change _ ≤ nestedWidth 1 2 s ∨ nestedWidth 1 2 s = _
  omega

/- A flat comment is no longer than a nested one. -/
theorem flatWidth_le_nestedWidth
    (s : Bytes) :
    blockCommentWidth false (blockOpener ++ s) ≤
      blockCommentWidth true (blockOpener ++ s) := by
  rcases flatCommentWidth_cases s with
    ⟨n, ⟨hFrom, hStands, hNone⟩, hFlat⟩ | ⟨hNone, hFlat⟩
  · have hLower := nestedCommentWidth_lower hFrom hNone
    have hIn : 2 ≤ ((blockOpener ++ s).drop n).length :=
      hStands.length_le
    rw [List.length_drop] at hIn
    omega
  · have hLower :=
      nestedCommentWidth_lower
        (n := (blockOpener ++ s).length + 2)
        (Nat.le_add_left 2 _) (fun m hFrom _ => hNone m hFrom)
    have hLe := nestedCommentWidth_le s
    omega

/- Up to the first mark, the depth counter passes over bytes. -/
theorem nestedCommentWidth_skip
    {n : Nat}
    (hFrom : 2 ≤ n)
    (hIn : n ≤ (blockOpener ++ s).length)
    (hNone :
      ∀ m, 2 ≤ m → m < n →
        ¬ blockOpener <+: (blockOpener ++ s).drop m ∧
          ¬ blockCloser <+: (blockOpener ++ s).drop m) :
    blockCommentWidth true (blockOpener ++ s) =
      nestedWidth 1 n ((blockOpener ++ s).drop n) := by
  have hLength : (blockOpener ++ s).length = s.length + 2 := by
    simp [blockOpener]
  obtain ⟨k, rfl⟩ : ∃ k, n = k + 2 := ⟨n - 2, by omega⟩
  have hSkip :=
    nestedWidth_skip (s := s) (n := k) 1 2 (by omega)
      (fun i hLt => hNone (i + 2) (by omega) (by omega))
  rw [Nat.add_comm 2 k] at hSkip
  exact hSkip

/-
  Where no opener stands before the first closer, both kinds
  of comments take the same bytes.
-/
theorem flatWidth_eq_nestedWidth
    (h : ¬ OpensBeforeClose (blockOpener ++ s)) :
    blockCommentWidth false (blockOpener ++ s) =
      blockCommentWidth true (blockOpener ++ s) := by
  rcases flatCommentWidth_cases s with
    ⟨n, hFirst, hFlat⟩ | ⟨_, hFlat⟩
  · have hStands := hFirst.2.1
    have hIn : 2 ≤ ((blockOpener ++ s).drop n).length :=
      hStands.length_le
    rw [List.length_drop] at hIn
    have hSkip :=
      nestedCommentWidth_skip hFirst.1 (by omega)
        (fun m hFrom hLt =>
          ⟨fun hOpen => h ⟨m, n, hFirst, hFrom, hLt, hOpen⟩,
            hFirst.2.2 m hFrom hLt⟩)
    rcases hStands with ⟨rest, hRest⟩
    rw [hFlat, hSkip, ← hRest]
    exact (nestedWidth_closer 1 n rest).symm
  · have hLe := nestedCommentWidth_le s
    have hNoLess := flatWidth_le_nestedWidth s
    omega

/-
  Where an opener does, the nested comment is longer, unless
  the flat one takes all bytes.
-/
theorem flatWidth_lt_nestedWidth
    (h : OpensBeforeClose (blockOpener ++ s))
    (hEarly :
      blockCommentWidth false (blockOpener ++ s) <
        (blockOpener ++ s).length) :
    blockCommentWidth false (blockOpener ++ s) <
      blockCommentWidth true (blockOpener ++ s) := by
  rcases h with ⟨p, q, hFirst, hFromP, hBefore, hOpen⟩
  have hFlat :
      blockCommentWidth false (blockOpener ++ s) = q + 2 := by
    rcases flatCommentWidth_cases s with
      ⟨n, hFirst', hFlat⟩ | ⟨hNone, _⟩
    · rw [hFlat, IsFirstFrom.unique hFirst' hFirst]
    · exact absurd hFirst.2.1 (hNone q hFirst.1)
  -- The counter comes to the first opener with one comment open.
  obtain ⟨p, ⟨hFrom, hLt, rest, hRest⟩, hNoOpener⟩ :
      ∃ p,
        (2 ≤ p ∧ p < q ∧
          blockOpener <+: (blockOpener ++ s).drop p) ∧
        ∀ m, 2 ≤ m → m < p →
          ¬ blockOpener <+: (blockOpener ++ s).drop m := by
    have hSome :
        ∃ p,
          2 ≤ p ∧ p < q ∧
            blockOpener <+: (blockOpener ++ s).drop p :=
      ⟨p, hFromP, hBefore, hOpen⟩
    refine ⟨Nat.find hSome, Nat.find_spec hSome, ?_⟩
    intro m hFrom hLt hHere
    have hLtQ := (Nat.find_spec hSome).2.1
    exact Nat.find_min hSome hLt ⟨hFrom, by omega, hHere⟩
  have hSize := congrArg List.length hRest
  have hTwo : blockOpener.length = 2 := rfl
  rw [List.length_append, List.length_drop, hTwo] at hSize
  have hSkip :
      blockCommentWidth true (blockOpener ++ s) =
        nestedWidth 2 (p + 2) rest := by
    rw [nestedCommentWidth_skip hFrom (by omega)
      (fun m hFrom hLtP =>
        ⟨hNoOpener m hFrom hLtP,
          hFirst.2.2 m hFrom (Nat.lt_trans hLtP hLt)⟩), ← hRest]
    exact nestedWidth_opener 1 p rest
  have hNoCloser :
      ∀ i, i < q - (p + 2) → ¬ blockCloser <+: rest.drop i := by
    intro i hLtI
    have hSame :
        rest.drop i = (blockOpener ++ s).drop (p + 2 + i) := by
      rw [← List.drop_drop, ← List.drop_drop, ← hRest]
      rfl
    rw [hSame]
    exact hFirst.2.2 _ (by omega) (by omega)
  have hTwoOpen : 1 ≤ 2 := by decide
  have hLower := nestedWidth_lower (p + 2) hTwoOpen hNoCloser
  omega

end Widths

------------------------------------------------------------
-- Ends of Block Comments
------------------------------------------------------------

/- The offset just past the block comment at an offset. -/
def blockCommentEnd
    (nested : Bool)
    (data : Bytes)
    (start : Nat) : Nat :=
  start + blockCommentWidth nested (data.drop start)

/-
  The grammar of nested comments ends at an offset, or at the
  end of the bytes where it does not match.
-/
inductive GrammarEnds
    (data : Bytes)
    (start : Nat) : Nat → Prop where
| found {stop : Nat} :
    stop ≤ data.length →
    ParsesComment (data.drop start) (some (data.drop stop)) →
    GrammarEnds data start stop
| missing :
    ParsesComment (data.drop start) none →
    GrammarEnds data start data.length

namespace GrammarEnds

variable {data : Bytes}
variable {start stop other : Nat}

/- The grammar ends at one offset. -/
theorem unique
    (h : GrammarEnds data start stop)
    (hOther : GrammarEnds data start other) :
    stop = other := by
  cases h with
  | found hLe hParses =>
      cases hOther with
      | found hLe' hParses' =>
          have hRest := Option.some.inj (hParses.unique hParses')
          have hLength := congrArg List.length hRest
          rw [List.length_drop, List.length_drop] at hLength
          omega
      | missing hFails => cases hParses.unique hFails
  | missing hFails =>
      cases hOther with
      | found _ hParses => cases hFails.unique hParses
      | missing _ => rfl

/- The grammar ends where the depth counter does. -/
theorem blockCommentEnd
    (hOpens : blockOpener <+: data.drop start) :
    GrammarEnds data start (blockCommentEnd true data start) := by
  rcases hOpens with ⟨rest, hRest⟩
  have hLe := nestedCommentWidth_le rest
  have hParses := parsesComment_blockCommentWidth rest
  rw [hRest] at hLe hParses
  have hLength := congrArg List.length hRest
  rw [List.length_drop] at hLe
  rw [List.length_append, List.length_drop] at hLength
  have hTwo : blockOpener.length = 2 := rfl
  unfold Lexer.blockCommentEnd
  rcases hParses with hFound | ⟨hFails, hAll⟩
  · rw [List.drop_drop] at hFound
    exact found (by omega) hFound
  · rw [hAll, List.length_drop,
      show start + (data.length - start) = data.length by omega]
    exact missing hFails

end GrammarEnds

/-
  A nested block comment ends where the grammar of comments
  ends.  A flat one ends no later: at the same offset where no
  opener stands before the first closer, and earlier where one
  does and a closer is found before the end of the bytes.
-/
theorem blockCommentEnd_follows_grammar
    {data : Bytes}
    {start : Nat}
    (hOpens : blockOpener <+: data.drop start) :
    (∀ stop,
      GrammarEnds data start stop ↔
        stop = blockCommentEnd true data start) ∧
    blockCommentEnd false data start ≤
      blockCommentEnd true data start ∧
    (¬ OpensBeforeClose (data.drop start) →
      blockCommentEnd false data start =
        blockCommentEnd true data start) ∧
    (OpensBeforeClose (data.drop start) →
      blockCommentEnd false data start < data.length →
        blockCommentEnd false data start <
          blockCommentEnd true data start) := by
  have hEnds := GrammarEnds.blockCommentEnd hOpens
  rcases hOpens with ⟨rest, hRest⟩
  unfold blockCommentEnd at hEnds ⊢
  refine ⟨?_, ?_, ?_, ?_⟩
  · intro stop
    constructor
    · intro h
      exact h.unique hEnds
    · rintro rfl
      exact hEnds
  · rw [← hRest]
    exact Nat.add_le_add_left (flatWidth_le_nestedWidth rest) _
  · rw [← hRest]
    intro hNone
    rw [flatWidth_eq_nestedWidth hNone]
  · intro hOpener hEarly
    have hIn :
        blockCommentWidth false (data.drop start) <
          (data.drop start).length := by
      rw [List.length_drop]
      omega
    rw [← hRest] at hOpener hIn ⊢
    exact
      Nat.add_lt_add_left (flatWidth_lt_nestedWidth hOpener hIn) _

/-
  In `/*/**/x` the second opener is closed and the first is
  not: the grammar fails, and the flat comment ends early.
-/
theorem blockCommentEnd_follows_grammar_unclosed :
    blockOpener <+: ([47, 42, 47, 42, 42, 47, 120] : Bytes) ∧
      GrammarEnds [47, 42, 47, 42, 42, 47, 120] 0 7 ∧
      blockCommentEnd false [47, 42, 47, 42, 42, 47, 120] 0 = 6 ∧
      blockCommentEnd false [47, 42, 47, 42, 42, 47, 120] 0 ≤
        blockCommentEnd true [47, 42, 47, 42, 42, 47, 120] 0 := by
  have hOpens :
      blockOpener <+: ([47, 42, 47, 42, 42, 47, 120] : Bytes) := by
    decide
  rcases @blockCommentEnd_follows_grammar
      [47, 42, 47, 42, 42, 47, 120] 0 hOpens with
    ⟨hEnds, hLe, _, _⟩
  exact ⟨hOpens, (hEnds 7).mpr (by decide), by decide, hLe⟩

end Lexer

end CommentLint
