import CommentLint.Lexer
import Mathlib.Tactic.Common

/-
  What stands between the apostrophes of a character literal.

  A literal is one character by the width that its first byte
  asks for, or a backslash, a byte of any kind and the rest of
  a short escape.  The lexer finds a literal exactly where
  such bytes and an apostrophe stand, whatever follows.

  Key definitions include:
    * `Lexer.LiteralBody`

  Key results include:
    * `Lexer.characterLiteralWidth?_eq_some_iff`
-/

namespace CommentLint

namespace Lexer

open Ascii

------------------------------------------------------------
-- Bytes before an Apostrophe
------------------------------------------------------------

/- A byte that neither closes a literal nor ends its line. -/
def IsInside (b : UInt8) : Prop :=
  b ≠ apostrophe ∧ b ≠ lineFeed

/- The apostrophe is found behind bytes that are inside. -/
theorem toApostrophe?_append
    {body : Bytes}
    (hInside : ∀ b ∈ body, IsInside b)
    (passed : Nat)
    (rest : Bytes) :
    toApostrophe? passed (body ++ apostrophe :: rest) =
      some (passed + body.length) := by
  induction body generalizing passed with
  | nil => simp [toApostrophe?]
  | cons b body ih =>
      rcases hInside b (by simp) with ⟨hApostrophe, hLine⟩
      have hBody : ∀ x ∈ body, IsInside x :=
        fun x hx => hInside x (List.mem_cons_of_mem b hx)
      rw [List.cons_append, toApostrophe?, if_neg hApostrophe,
        if_neg hLine, ih hBody, List.length_cons]
      congr 1
      omega

/- Only bytes that are inside stand before it. -/
theorem exists_of_toApostrophe?
    {passed n : Nat}
    {s : Bytes}
    (h : toApostrophe? passed s = some n) :
    ∃ body rest,
      s = body ++ apostrophe :: rest ∧
        (∀ b ∈ body, IsInside b) ∧
        n = passed + body.length := by
  induction s generalizing passed with
  | nil => cases h
  | cons b s ih =>
      rw [toApostrophe?] at h
      split at h
      case isTrue hApostrophe =>
        cases h
        subst hApostrophe
        exact ⟨[], s, rfl, by simp, rfl⟩
      case isFalse hApostrophe =>
        split at h
        case isTrue hLine => cases h
        case isFalse hLine =>
          rcases ih h with ⟨body, rest, rfl, hInside, rfl⟩
          refine ⟨b :: body, rest, rfl, ?_, ?_⟩
          · rw [List.forall_mem_cons]
            exact ⟨⟨hApostrophe, hLine⟩, hInside⟩
          · rw [List.length_cons]
            omega

------------------------------------------------------------
-- Literals
------------------------------------------------------------

/-
  The bytes between the apostrophes: a character by its width,
  or an escape of which all but the first byte is inside.
-/
inductive LiteralBody : Bytes → Prop where
| character {b : UInt8} {tail : Bytes} :
    IsInside b →
    b ≠ backslash →
    tail.length + 1 = characterWidth b →
    LiteralBody (b :: tail)
| escape {c : UInt8} {tail : Bytes} :
    tail.length < escapeWindow →
    (∀ b ∈ tail, IsInside b) →
    LiteralBody (backslash :: c :: tail)

/- A character has a byte of its own. -/
theorem characterWidth_pos (b : UInt8) :
    1 ≤ characterWidth b := by
  unfold characterWidth
  split_ifs <;> decide

/- A literal is found where its bytes and an apostrophe stand. -/
theorem characterLiteralWidth?_append
    {body : Bytes}
    (hBody : LiteralBody body)
    (rest : Bytes) :
    characterLiteralWidth? (body ++ apostrophe :: rest) =
      some (body.length + 2) := by
  cases hBody with
  | @character b tail hInside hPlain hWidth =>
      have hFirst : ¬ (b = lineFeed ∨ b = apostrophe) := by
        rintro (hLine | hApostrophe)
        · exact hInside.2 hLine
        · exact hInside.1 hApostrophe
      have hTail : characterWidth b - 1 = tail.length := by
        omega
      rw [List.cons_append, characterLiteralWidth?,
        if_neg hFirst, if_neg hPlain]
      dsimp only
      rw [hTail, List.drop_left, List.head?_cons, if_pos rfl,
        ← hWidth, List.length_cons]
  | @escape c tail hShort hInside =>
      have hFirst :
          ¬ (backslash = lineFeed ∨ backslash = apostrophe) := by
        decide
      have hWindow :
          (tail ++ apostrophe :: rest).take escapeWindow =
            tail ++ apostrophe ::
              rest.take (escapeWindow - (tail.length + 1)) := by
        rw [List.take_append,
          List.take_of_length_le (Nat.le_of_lt hShort),
          List.take_cons (by omega), Nat.sub_sub]
      rw [List.cons_append, List.cons_append,
        characterLiteralWidth?, if_neg hFirst, if_pos rfl,
        List.drop_one, List.tail_cons, hWindow,
        toApostrophe?_append hInside, Option.map_some]
      congr 1
      simp only [List.length_cons]
      omega

/- Nothing else is found to be a literal. -/
theorem exists_of_characterLiteralWidth?
    {s : Bytes}
    {width : Nat}
    (h : characterLiteralWidth? s = some width) :
    ∃ body rest,
      s = body ++ apostrophe :: rest ∧ LiteralBody body ∧
        width = body.length + 2 := by
  cases s with
  | nil => cases h
  | cons b s =>
      rw [characterLiteralWidth?] at h
      split at h
      case isTrue hNone => cases h
      case isFalse hFirst =>
        rw [not_or] at hFirst
        split at h
        case isTrue hEscape =>
          subst hEscape
          rcases Option.map_eq_some_iff.mp h with ⟨n, hFound, rfl⟩
          rcases exists_of_toApostrophe? hFound with
            ⟨tail, rest, hWindow, hInside, rfl⟩
          cases s with
          | nil => simp at hWindow
          | cons c s =>
              rw [List.drop_one, List.tail_cons] at hWindow
              have hShort : tail.length < escapeWindow := by
                have hLength := congrArg List.length hWindow
                rw [List.length_take, List.length_append,
                  List.length_cons] at hLength
                omega
              refine
                ⟨backslash :: c :: tail,
                  rest ++ s.drop escapeWindow, ?_,
                  LiteralBody.escape hShort hInside, ?_⟩
              · have hSplit :
                    s = tail ++ apostrophe :: rest ++
                      s.drop escapeWindow := by
                  rw [← hWindow, List.take_append_drop]
                simpa using hSplit
              · simp only [List.length_cons]
                omega
        case isFalse hPlain =>
          dsimp only at h
          split at h
          case isTrue hClose =>
            cases h
            have hWide := characterWidth_pos b
            rcases List.head?_eq_some_iff.mp hClose with
              ⟨rest, hRest⟩
            have hSplit :=
              List.take_append_drop (characterWidth b - 1) s
            rw [hRest] at hSplit
            have hLength :
                (s.take (characterWidth b - 1)).length + 1 =
                  characterWidth b := by
              have hIn := congrArg List.length hRest
              rw [List.length_drop, List.length_cons] at hIn
              rw [List.length_take]
              omega
            refine
              ⟨b :: s.take (characterWidth b - 1), rest, ?_,
                LiteralBody.character ⟨hFirst.2, hFirst.1⟩
                  hPlain hLength, ?_⟩
            · rw [List.cons_append, hSplit]
            · rw [List.length_cons, hLength]
          case isFalse hOpen => cases h

/- The lexer finds the literals. -/
theorem characterLiteralWidth?_eq_some_iff
    {s : Bytes}
    {width : Nat} :
    characterLiteralWidth? s = some width ↔
      ∃ body rest,
        s = body ++ apostrophe :: rest ∧ LiteralBody body ∧
          width = body.length + 2 := by
  constructor
  · exact exists_of_characterLiteralWidth?
  · rintro ⟨body, rest, rfl, hBody, rfl⟩
    exact characterLiteralWidth?_append hBody rest

end Lexer

end CommentLint
