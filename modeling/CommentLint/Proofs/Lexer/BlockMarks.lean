import CommentLint.Lexer
import Mathlib.Tactic.Common

/-
  Openers and closers of block comments, paired off.

  The marks of a byte string are read from left to right and
  do not overlap.  A block comment that nests ends with the
  closer that its opener is paired with.

  Key definitions include:
    * `Lexer.BlockMark`
    * `Lexer.blockMarks`
    * `Lexer.Paired`
    * `Lexer.EndsBalanced`

  Key results include:
    * `Lexer.nestedWidth_closes`
    * `Lexer.endsBalanced_blockCommentWidth`
-/

namespace CommentLint

namespace Lexer

open Ascii

------------------------------------------------------------
-- Marks
------------------------------------------------------------

/- What opens or closes a block comment. -/
inductive BlockMark where
| opener
| closer
deriving DecidableEq, Repr

/-
  The marks of the bytes with their offsets, read from left
  to right without overlap; `passed` bytes came before.
-/
def blockMarks
    (passed : Nat) :
    Bytes → List (Nat × BlockMark)
  | [] => []
  | [_] => []
  | a :: b :: s =>
      if a = slash ∧ b = star then
        (passed, .opener) :: blockMarks (passed + 2) s
      else if a = star ∧ b = slash then
        (passed, .closer) :: blockMarks (passed + 2) s
      else blockMarks (passed + 1) (b :: s)
termination_by structural s => s

/- The bytes of a mark. -/
def BlockMark.bytes : BlockMark → Bytes
  | .opener => blockOpener
  | .closer => blockCloser

/- A mark is read where its bytes stand. -/
theorem bytes_of_mem_blockMarks
    {passed n : Nat}
    {mark : BlockMark}
    {s : Bytes}
    (h : (n, mark) ∈ blockMarks passed s) :
    passed ≤ n ∧ mark.bytes <+: s.drop (n - passed) := by
  induction passed, s using blockMarks.induct with
  | case1 passed => cases h
  | case2 passed b => cases h
  | case3 passed a b s hOpener ih =>
      rw [blockMarks, if_pos hOpener] at h
      rcases List.mem_cons.mp h with hFirst | hRest
      · cases hFirst
        simp [BlockMark.bytes, blockOpener, hOpener]
      · rcases ih hRest with ⟨hLe, hBytes⟩
        refine ⟨by omega, ?_⟩
        rw [show n - passed = n - (passed + 2) + 2 by omega]
        exact hBytes
  | case4 passed a b s hOpener hCloser ih =>
      rw [blockMarks, if_neg hOpener, if_pos hCloser] at h
      rcases List.mem_cons.mp h with hFirst | hRest
      · cases hFirst
        simp [BlockMark.bytes, blockCloser, hCloser]
      · rcases ih hRest with ⟨hLe, hBytes⟩
        refine ⟨by omega, ?_⟩
        rw [show n - passed = n - (passed + 2) + 2 by omega]
        exact hBytes
  | case5 passed a b s hOpener hCloser ih =>
      rw [blockMarks, if_neg hOpener, if_neg hCloser] at h
      rcases ih h with ⟨hLe, hBytes⟩
      refine ⟨by omega, ?_⟩
      rw [show n - passed = n - (passed + 1) + 1 by omega]
      exact hBytes

/- Marks of which every one is paired, each pair properly nested. -/
inductive Paired : List BlockMark → Prop where
| nil : Paired []
| pair {u v : List BlockMark} :
    Paired u → Paired v →
    Paired (.opener :: u ++ .closer :: v)

/-
  Marks that leave a number of closers unpaired, for openers
  that came before them.
-/
inductive Leaves : Nat → List BlockMark → Prop where
| none {u : List BlockMark} :
    Paired u → Leaves 0 u
| closer {u v : List BlockMark} {k : Nat} :
    Paired u → Leaves k v →
    Leaves (k + 1) (u ++ .closer :: v)

namespace Leaves

/- Marks that leave nothing are paired. -/
theorem zero_iff {u : List BlockMark} :
    Leaves 0 u ↔ Paired u := by
  constructor
  · intro h
    cases h with
    | none hPaired => exact hPaired
  · exact none

/- No marks leave no closer. -/
theorem nil_iff {k : Nat} :
    Leaves k [] ↔ k = 0 := by
  constructor
  · intro h
    generalize hNil : ([] : List BlockMark) = u at h
    cases h with
    | none hPaired => rfl
    | closer hPaired hRest => simp at hNil
  · rintro rfl
    exact none Paired.nil

/- A closer in front is left unpaired. -/
theorem closer_cons_iff
    {k : Nat}
    {v : List BlockMark} :
    Leaves k (.closer :: v) ↔ ∃ j, k = j + 1 ∧ Leaves j v := by
  constructor
  · intro h
    generalize hMarks : BlockMark.closer :: v = u at h
    cases h with
    | none hPaired => cases hPaired <;> simp at hMarks
    | closer hPaired hRest =>
        cases hPaired with
        | nil =>
            cases hMarks
            exact ⟨_, rfl, hRest⟩
        | pair hInner hNext => simp at hMarks
  · rintro ⟨j, rfl, hRest⟩
    exact closer Paired.nil hRest

/- An opener in front takes up a closer. -/
theorem opener_cons_iff
    {k : Nat}
    {v : List BlockMark} :
    Leaves k (.opener :: v) ↔ Leaves (k + 1) v := by
  constructor
  · intro h
    generalize hMarks : BlockMark.opener :: v = u at h
    cases h with
    | none hPaired =>
        cases hPaired with
        | nil => cases hMarks
        | pair hInner hNext =>
            cases hMarks
            exact closer hInner (none hNext)
    | closer hPaired hRest =>
        cases hPaired with
        | nil => simp at hMarks
        | pair hInner hNext =>
            simp only [List.cons_append, List.append_assoc,
              List.cons.injEq, true_and] at hMarks
            subst hMarks
            exact closer hInner (closer hNext hRest)
  · intro h
    cases h with
    | closer hInner hRest =>
        cases hRest with
        | none hNext => exact none (Paired.pair hInner hNext)
        | closer hNext hLast =>
            have hPair := closer (Paired.pair hInner hNext) hLast
            simpa using hPair

end Leaves

------------------------------------------------------------
-- The Depth Counter
------------------------------------------------------------

/- An opener is passed over and opens one more comment. -/
theorem nestedWidth_opener
    (depth passed : Nat)
    (s : Bytes) :
    nestedWidth depth passed (slash :: star :: s) =
      nestedWidth (depth + 1) (passed + 2) s := by
  rw [nestedWidth, if_pos ⟨rfl, rfl⟩]

/- A closer closes the last comment that is open. -/
theorem nestedWidth_closer
    (depth passed : Nat)
    (s : Bytes) :
    nestedWidth depth passed (star :: slash :: s) =
      if depth ≤ 1 then passed + 2
      else nestedWidth (depth - 1) (passed + 2) s := by
  rw [nestedWidth, if_neg (by decide), if_pos ⟨rfl, rfl⟩]

/- A byte that starts no mark is passed over. -/
theorem nestedWidth_cons_of_not_stands
    {b : UInt8}
    {s : Bytes}
    (hOpener : ¬ blockOpener <+: b :: s)
    (hCloser : ¬ blockCloser <+: b :: s)
    (depth passed : Nat) :
    nestedWidth depth passed (b :: s) =
      nestedWidth depth (passed + 1) s := by
  cases s with
  | nil => rfl
  | cons c s =>
      rw [nestedWidth, if_neg, if_neg]
      · rintro ⟨rfl, rfl⟩
        exact hCloser (List.prefix_append blockCloser s)
      · rintro ⟨rfl, rfl⟩
        exact hOpener (List.prefix_append blockOpener s)

------------------------------------------------------------
-- The Closer of an Open Comment
------------------------------------------------------------

/- The closer at an offset comes behind marks that leave `k`. -/
def ClosesAt
    (marks : List (Nat × BlockMark))
    (k n : Nat) : Prop :=
  ∃ inner rest,
    marks = inner ++ (n, .closer) :: rest ∧
      Leaves k (inner.map Prod.snd)

namespace ClosesAt

variable {marks : List (Nat × BlockMark)}
variable {k n p : Nat}

theorem not_nil : ¬ ClosesAt [] k n := by
  rintro ⟨inner, rest, hMarks, _⟩
  simp at hMarks

/- An opener has one more closer to be left behind it. -/
theorem opener_cons_iff :
    ClosesAt ((p, .opener) :: marks) k n ↔
      ClosesAt marks (k + 1) n := by
  constructor
  · rintro ⟨inner, rest, hMarks, hLeaves⟩
    cases inner with
    | nil => simp at hMarks
    | cons m inner =>
        simp only [List.cons_append, List.cons.injEq] at hMarks
        rcases hMarks with ⟨rfl, rfl⟩
        exact
          ⟨inner, rest, rfl, Leaves.opener_cons_iff.mp hLeaves⟩
  · rintro ⟨inner, rest, rfl, hLeaves⟩
    exact
      ⟨(p, .opener) :: inner, rest, rfl,
        Leaves.opener_cons_iff.mpr hLeaves⟩

/- With nothing to leave, the next closer closes. -/
theorem closer_cons_zero_iff :
    ClosesAt ((p, .closer) :: marks) 0 n ↔ n = p := by
  constructor
  · rintro ⟨inner, rest, hMarks, hLeaves⟩
    cases inner with
    | nil =>
        simp at hMarks
        exact hMarks.1.symm
    | cons m inner =>
        simp only [List.cons_append, List.cons.injEq] at hMarks
        rcases hMarks with ⟨rfl, rfl⟩
        rcases Leaves.closer_cons_iff.mp hLeaves with ⟨j, hj, _⟩
        omega
  · rintro rfl
    exact ⟨[], marks, rfl, Leaves.nil_iff.mpr rfl⟩

/- A closer that is to be left is passed over. -/
theorem closer_cons_succ_iff :
    ClosesAt ((p, .closer) :: marks) (k + 1) n ↔
      ClosesAt marks k n := by
  constructor
  · rintro ⟨inner, rest, hMarks, hLeaves⟩
    cases inner with
    | nil =>
        have hCount := Leaves.nil_iff.mp hLeaves
        omega
    | cons m inner =>
        simp only [List.cons_append, List.cons.injEq] at hMarks
        rcases hMarks with ⟨rfl, rfl⟩
        rcases Leaves.closer_cons_iff.mp hLeaves with
          ⟨j, hj, hRest⟩
        have hSame : k = j := by omega
        exact ⟨inner, rest, rfl, hSame ▸ hRest⟩
  · rintro ⟨inner, rest, rfl, hLeaves⟩
    exact
      ⟨(p, .closer) :: inner, rest, rfl,
        Leaves.closer_cons_iff.mpr ⟨k, rfl, hLeaves⟩⟩

end ClosesAt

/-
  The depth counter stops behind the closer that leaves one
  closer fewer than there are open comments.
-/
theorem nestedWidth_closes
    (k passed : Nat)
    (s : Bytes) :
    (∃ n, ClosesAt (blockMarks passed s) k n ∧
      nestedWidth (k + 1) passed s = n + 2) ∨
    ((∀ n, ¬ ClosesAt (blockMarks passed s) k n) ∧
      nestedWidth (k + 1) passed s = passed + s.length) := by
  induction passed, s using blockMarks.induct
    generalizing k with
  | case1 passed =>
      right
      exact ⟨fun n => ClosesAt.not_nil, rfl⟩
  | case2 passed b =>
      right
      exact ⟨fun n => ClosesAt.not_nil, rfl⟩
  | case3 passed a b s hOpener ih =>
      rw [blockMarks, nestedWidth, if_pos hOpener,
        if_pos hOpener]
      simp only [ClosesAt.opener_cons_iff, List.length_cons]
      rcases ih (k + 1) with hCloses | ⟨hNone, hWidth⟩
      · exact Or.inl hCloses
      · exact Or.inr ⟨hNone, by omega⟩
  | case4 passed a b s hOpener hCloser ih =>
      rw [blockMarks, nestedWidth, if_neg hOpener,
        if_neg hOpener, if_pos hCloser, if_pos hCloser]
      cases k with
      | zero =>
          left
          exact
            ⟨passed, ClosesAt.closer_cons_zero_iff.mpr rfl,
              if_pos (by omega)⟩
      | succ k =>
          rw [if_neg (by omega)]
          simp only [ClosesAt.closer_cons_succ_iff,
            List.length_cons]
          rcases ih k with hCloses | ⟨hNone, hWidth⟩
          · exact Or.inl hCloses
          · refine Or.inr ⟨hNone, ?_⟩
            rw [Nat.add_sub_cancel]
            omega
  | case5 passed a b s hOpener hCloser ih =>
      rw [blockMarks, nestedWidth, if_neg hOpener,
        if_neg hOpener, if_neg hCloser, if_neg hCloser]
      rcases ih k with hCloses | ⟨hNone, hWidth⟩
      · exact Or.inl hCloses
      · refine Or.inr ⟨hNone, ?_⟩
        simp only [List.length_cons] at hWidth ⊢
        omega

------------------------------------------------------------
-- Balanced Comments
------------------------------------------------------------

/- The closer at an offset is paired with the opener in front. -/
def Balances
    (s : Bytes)
    (n : Nat) : Prop :=
  ∃ inner rest,
    blockMarks 0 s =
        (0, .opener) :: inner ++ (n, .closer) :: rest ∧
      Paired (inner.map Prod.snd)

/- A balancing closer stands where it is found. -/
theorem Balances.stands
    {s : Bytes}
    {n : Nat}
    (h : Balances s n) :
    blockCloser <+: s.drop n := by
  rcases h with ⟨inner, rest, hMarks, _⟩
  have hMem : (n, BlockMark.closer) ∈ blockMarks 0 s := by
    rw [hMarks]
    simp
  exact (bytes_of_mem_blockMarks hMem).2

/-
  A width ends just past the closer that balances the opener
  in front, or at the end of the bytes when none does.
-/
def EndsBalanced
    (s : Bytes)
    (width : Nat) : Prop :=
  (∃ n, Balances s n ∧ width = n + 2) ∨
    ((∀ n, ¬ Balances s n) ∧ width = s.length)

/- A block comment that nests ends where its opener is balanced. -/
theorem endsBalanced_blockCommentWidth
    {s : Bytes}
    (hOpens : blockOpener <+: s) :
    EndsBalanced s (blockCommentWidth true s) := by
  rcases hOpens with ⟨rest, rfl⟩
  have hMarks :
      blockMarks 0 (blockOpener ++ rest) =
        (0, .opener) :: blockMarks 2 rest := by
    simp [blockMarks, blockOpener]
  have hBalances :
      ∀ n, Balances (blockOpener ++ rest) n ↔
        ClosesAt (blockMarks 2 rest) 0 n := by
    intro n
    unfold Balances ClosesAt
    simp [hMarks, Leaves.zero_iff]
  have hWidth :
      blockCommentWidth true (blockOpener ++ rest) =
        nestedWidth 1 2 rest := rfl
  have hLength :
      (blockOpener ++ rest).length = 2 + rest.length := by
    simp [blockOpener]
    omega
  unfold EndsBalanced
  simp only [hBalances, hWidth, hLength]
  exact nestedWidth_closes 0 2 rest

end Lexer

end CommentLint
