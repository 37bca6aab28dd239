import CommentLint.Proofs.Source.Lines

/-
  Bytes whose lines end with a carriage return and a line feed.

  A carriage return is put in front of each line feed.  Bytes
  without a line feed stay as they are, each offset moves by
  the line feeds before it, and each line keeps its number.

  Key definitions include:
    * `withReturns`
    * `IsInLine`
    * `place`

  Key results include:
    * `prefix_withReturns_iff`
    * `drop_place`
    * `SourceFile.lastLine_withReturns`
-/

namespace CommentLint

open Ascii

------------------------------------------------------------
-- Carriage Returns
------------------------------------------------------------

/- Put a carriage return in front of each line feed. -/
def withReturns (s : Bytes) : Bytes :=
  s.flatMap fun b =>
    if b = lineFeed then [carriageReturn, lineFeed] else [b]

section Returns

variable {s t : Bytes}
variable {b : UInt8}

@[simp] theorem withReturns_nil :
    withReturns [] = [] :=
  rfl

/- Carriage returns are put in piece by piece. -/
theorem withReturns_append
    (s t : Bytes) :
    withReturns (s ++ t) = withReturns s ++ withReturns t :=
  List.flatMap_append

/- A line feed gets its carriage return. -/
@[simp] theorem withReturns_lineFeed
    (s : Bytes) :
    withReturns (lineFeed :: s) =
      carriageReturn :: lineFeed :: withReturns s := by
  simp [withReturns]

/- Any other byte stays as it is. -/
theorem withReturns_cons_of_ne
    (h : b ≠ lineFeed)
    (s : Bytes) :
    withReturns (b :: s) = b :: withReturns s := by
  simp [withReturns, h]

/- Bytes without a line feed stay as they are. -/
theorem withReturns_eq_self
    (h : lineFeed ∉ t) :
    withReturns t = t := by
  induction t with
  | nil => rfl
  | cons b t ih =>
      rw [List.mem_cons, not_or] at h
      rw [withReturns_cons_of_ne (Ne.symm h.1), ih h.2]

/- They stay as they are in front of other bytes. -/
theorem withReturns_append_of_not_mem
    (h : lineFeed ∉ t)
    (s : Bytes) :
    withReturns (t ++ s) = t ++ withReturns s := by
  rw [withReturns_append, withReturns_eq_self h]

/- The first byte changes only if it is a line feed. -/
theorem head?_withReturns_eq_some_iff
    (hFeed : b ≠ lineFeed)
    (hReturn : b ≠ carriageReturn) :
    (withReturns s).head? = some b ↔ s.head? = some b := by
  cases s with
  | nil => simp
  | cons c s =>
      by_cases hc : c = lineFeed
      · subst hc
        simp [hFeed.symm, hReturn.symm]
      · simp [withReturns_cons_of_ne hc]

/- Bytes of which none is part of the end of a line. -/
def IsInLine (p : Bytes) : Prop :=
  lineFeed ∉ p ∧ carriageReturn ∉ p

instance (p : Bytes) : Decidable (IsInLine p) := by
  unfold IsInLine
  infer_instance

/- Bytes inside a line stand in front as before. -/
theorem prefix_withReturns_iff
    {p : Bytes}
    (h : IsInLine p) :
    p <+: withReturns s ↔ p <+: s := by
  rcases h with ⟨hFeed, hReturn⟩
  induction p generalizing s with
  | nil => simp
  | cons b p ih =>
      rw [List.mem_cons, not_or] at hFeed hReturn
      cases s with
      | nil => simp
      | cons c s =>
          by_cases hc : c = lineFeed
          · subst hc
            simp [Ne.symm hFeed.1, Ne.symm hReturn.1]
          · rw [withReturns_cons_of_ne hc, List.cons_prefix_cons,
              List.cons_prefix_cons, ih hFeed.2 hReturn.2]

/- Bytes without a line feed come first, as they are. -/
theorem withReturns_eq_take_append
    {n : Nat}
    (h : lineFeed ∉ s.take n) :
    withReturns s = s.take n ++ withReturns (s.drop n) := by
  rw [← withReturns_append_of_not_mem h, List.take_append_drop]

/- The first bytes are as before. -/
theorem take_withReturns
    {n : Nat}
    (h : lineFeed ∉ s.take n) :
    (withReturns s).take n = s.take n := by
  rcases Nat.le_total n s.length with hLe | hLe
  · rw [withReturns_eq_take_append h]
    exact List.take_left' (List.length_take_of_le hLe)
  · rw [List.take_of_length_le hLe] at h
    rw [withReturns_eq_self h]

/- The bytes behind them are as before, with their returns. -/
theorem drop_withReturns
    {n : Nat}
    (h : lineFeed ∉ s.take n) :
    (withReturns s).drop n = withReturns (s.drop n) := by
  rcases Nat.le_total n s.length with hLe | hLe
  · rw [withReturns_eq_take_append h]
    exact List.drop_left' (List.length_take_of_le hLe)
  · rw [List.take_of_length_le hLe] at h
    rw [withReturns_eq_self h, List.drop_eq_nil_of_le hLe]
    rfl

end Returns

------------------------------------------------------------
-- Places
------------------------------------------------------------

/- Where an offset is once the carriage returns are put in. -/
def place
    (data : Bytes)
    (n : Nat) : Nat :=
  (withReturns (data.take n)).length

section Places

variable {data : Bytes}
variable {n : Nat}
variable {b : UInt8}

@[simp] theorem place_zero
    (data : Bytes) :
    place data 0 = 0 := by
  simp [place]

/- The end stays the end. -/
@[simp] theorem place_length
    (data : Bytes) :
    place data data.length = (withReturns data).length := by
  simp [place]

/- An offset is moved on by the bytes up to it. -/
theorem place_add
    (data : Bytes)
    (m n : Nat) :
    place data (m + n) =
      place data m +
        (withReturns ((data.drop m).take n)).length := by
  unfold place
  rw [List.take_add, withReturns_append, List.length_append]

/- Carriage returns are put in on both sides of an offset. -/
theorem withReturns_split
    (data : Bytes)
    (n : Nat) :
    withReturns data =
      withReturns (data.take n) ++ withReturns (data.drop n) := by
  rw [← withReturns_append, List.take_append_drop]

/- Places lie in the bytes with returns. -/
theorem place_le_length
    (data : Bytes)
    (n : Nat) :
    place data n ≤ (withReturns data).length := by
  rw [withReturns_split data n, List.length_append]
  exact Nat.le_add_right _ _

/- What stands before the place of an offset. -/
theorem take_place
    (data : Bytes)
    (n : Nat) :
    (withReturns data).take (place data n) =
      withReturns (data.take n) := by
  rw [withReturns_split data n]
  exact List.take_left' rfl

/- What stands behind the place of an offset. -/
theorem drop_place
    (data : Bytes)
    (n : Nat) :
    (withReturns data).drop (place data n) =
      withReturns (data.drop n) := by
  rw [withReturns_split data n]
  exact List.drop_left' rfl

/- A byte that ends no line is found at its place. -/
theorem getElem?_place
    (hByte : data[n]? = some b)
    (hFeed : b ≠ lineFeed) :
    (withReturns data)[place data n]? = some b := by
  rw [← List.head?_drop] at hByte ⊢
  rw [drop_place]
  cases hRest : data.drop n with
  | nil =>
      rw [hRest] at hByte
      cases hByte
  | cons c rest =>
      rw [hRest] at hByte
      cases hByte
      rw [withReturns_cons_of_ne hFeed]
      rfl

/- The next place follows a byte that ends no line. -/
theorem place_succ_of_ne
    (hByte : data[n]? = some b)
    (hFeed : b ≠ lineFeed) :
    place data (n + 1) = place data n + 1 := by
  unfold place
  rw [List.take_add_one, hByte, Option.toList_some,
    withReturns_append, List.length_append,
    withReturns_cons_of_ne hFeed]
  rfl

/- A line feed is found behind its carriage return. -/
theorem drop_place_of_lineFeed
    (hByte : data[n]? = some lineFeed) :
    (withReturns data).drop (place data n) =
      carriageReturn :: lineFeed ::
        withReturns (data.drop (n + 1)) := by
  rcases List.getElem?_eq_some_iff.mp hByte with ⟨hIn, hAt⟩
  rw [drop_place, List.drop_eq_getElem_cons hIn, hAt,
    withReturns_lineFeed]

/- The next place follows both of them. -/
theorem place_succ_of_lineFeed
    (hByte : data[n]? = some lineFeed) :
    place data (n + 1) = place data n + 2 := by
  unfold place
  rw [List.take_add_one, hByte, Option.toList_some,
    withReturns_append, List.length_append]
  rfl

end Places

------------------------------------------------------------
-- Lines
------------------------------------------------------------

namespace SourceFile

/- There are as many lines as before. -/
theorem count_withReturns (s : Bytes) :
    (withReturns s).count lineFeed = s.count lineFeed := by
  have hReturn : carriageReturn ≠ lineFeed := by decide
  induction s with
  | nil => rfl
  | cons b s ih =>
      by_cases hb : b = lineFeed
      · subst hb
        rw [withReturns_lineFeed,
          List.count_cons_of_ne hReturn, List.count_cons_self,
          List.count_cons_self, ih]
      · rw [withReturns_cons_of_ne hb, List.count_cons_of_ne hb,
          List.count_cons_of_ne hb, ih]

/- The last line is as before. -/
theorem lastLine_withReturns (s : Bytes) :
    lastLine (withReturns s) = lastLine s := by
  rcases lastLine_cases s with ⟨hNot, hAll | ⟨p, hSplit⟩⟩
  · rw [← hAll] at hNot
    rw [withReturns_eq_self hNot]
  · have hReturns :
        withReturns s =
          withReturns p ++ [carriageReturn, lineFeed] ++
            lastLine s := by
      conv => lhs; rw [hSplit]
      rw [withReturns_append, withReturns_lineFeed,
        withReturns_eq_self hNot]
      simp
    have hEmpty :
        lastLine
            (withReturns p ++ [carriageReturn, lineFeed]) = [] := by
      rw [show [carriageReturn, lineFeed] =
        [carriageReturn] ++ [lineFeed] from rfl,
        ← List.append_assoc, lastLine_append_lineFeed]
    rw [hReturns, lastLine_append _ hNot, hEmpty,
      List.nil_append]

end SourceFile

end CommentLint
