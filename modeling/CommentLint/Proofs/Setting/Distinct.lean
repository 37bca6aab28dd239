import CommentLint.Setting.Basic
import Mathlib.Tactic.Common

/-
  Lists of which the first of equal elements are kept.

  To keep the first elements of a list that goes on is to go
  on from those kept already, so that they may be kept before
  the list goes on.  Nothing is kept of elements that are
  there.  Neither needs the test of equality to be one.

  Key results include:
    * `keepFirst_append`
    * `keepFirst_keepFirst_append`
    * `keepFirst_append_self`
    * `keepFirst_map`
    * `mem_distinct_iff`
    * `distinct_eq_eraseDups`
    * `distinctKeys_append`
-/

namespace CommentLint

------------------------------------------------------------
-- First Elements
------------------------------------------------------------

section FirstElements

variable {α : Type}
variable {same : α → α → Bool}
variable {kept items more : List α}
variable {x : α}

/- The elements of a list that goes on are kept behind its own. -/
theorem keepFirst_append
    (kept items more : List α) :
    keepFirst same kept (items ++ more) =
      keepFirst same (keepFirst same kept items).reverse more := by
  induction items generalizing kept with
  | nil => simp [keepFirst]
  | cons x rest ih =>
      rw [List.cons_append, keepFirst, keepFirst]
      split <;> exact ih _

/- What is kept was there. -/
theorem mem_of_mem_keepFirst
    (h : x ∈ keepFirst same kept items) :
    x ∈ kept ∨ x ∈ items := by
  induction items generalizing kept with
  | nil => exact Or.inl (List.mem_reverse.mp h)
  | cons y rest ih =>
      rw [keepFirst] at h
      split at h
      · rcases ih h with hKept | hRest
        · exact Or.inl hKept
        · exact Or.inr (List.mem_cons_of_mem _ hRest)
      · rcases ih h with hKept | hRest
        · rcases List.mem_cons.mp hKept with rfl | hOld
          · exact Or.inr List.mem_cons_self
          · exact Or.inl hOld
        · exact Or.inr (List.mem_cons_of_mem _ hRest)

/- Of two elements kept the later is not the same as the other. -/
theorem keepFirst_pairwise
    (h : kept.reverse.Pairwise fun x y => same x y = false)
    (items : List α) :
    (keepFirst same kept items).Pairwise fun x y =>
      same x y = false := by
  induction items generalizing kept with
  | nil => exact h
  | cons y rest ih =>
      rw [keepFirst]
      split
      · exact ih h
      · rename_i hNone
        apply ih
        rw [List.reverse_cons, List.pairwise_append]
        refine ⟨h, List.pairwise_singleton _ _, ?_⟩
        intro x hx z hz
        rw [List.mem_singleton.mp hz]
        rw [List.any_eq_true] at hNone
        rw [← Bool.not_eq_true]
        exact fun hSame =>
          hNone ⟨x, List.mem_reverse.mp hx, hSame⟩

/- Elements of which none is the same as an earlier one are kept. -/
theorem keepFirst_eq_append
    (h :
      (kept.reverse ++ items).Pairwise fun x y =>
        same x y = false) :
    keepFirst same kept items = kept.reverse ++ items := by
  induction items generalizing kept with
  | nil => simp [keepFirst]
  | cons y rest ih =>
      have hNone : ¬ kept.any (fun x => same x y) = true := by
        rw [List.any_eq_true]
        rintro ⟨x, hx, hSame⟩
        have hApart :=
          (List.pairwise_append.mp h).2.2 x
            (List.mem_reverse.mpr hx) y List.mem_cons_self
        rw [hSame] at hApart
        cases hApart
      rw [keepFirst, if_neg hNone, ih]
      · simp
      · simpa using h

/- The first elements may be kept before the list goes on. -/
theorem keepFirst_keepFirst_append
    (items more : List α) :
    keepFirst same [] (keepFirst same [] items ++ more) =
      keepFirst same [] (items ++ more) := by
  have hAgain :
      keepFirst same [] (keepFirst same [] items) =
        keepFirst same [] items :=
    keepFirst_eq_append
      (keepFirst_pairwise List.Pairwise.nil items)
  rw [keepFirst_append, keepFirst_append, hAgain]

/- For every element one that is the same is kept. -/
theorem exists_same_keepFirst
    (h : (∃ y ∈ kept, same y x = true) ∨
      x ∈ items ∧ same x x = true) :
    ∃ y ∈ keepFirst same kept items, same y x = true := by
  induction items generalizing kept with
  | nil =>
      rcases h with ⟨y, hy, hSame⟩ | ⟨hx, _⟩
      · exact ⟨y, List.mem_reverse.mpr hy, hSame⟩
      · cases hx
  | cons z rest ih =>
      rw [keepFirst]
      split
      · rename_i hSome
        apply ih
        rcases h with hKept | ⟨hx, hSelf⟩
        · exact Or.inl hKept
        · rcases List.mem_cons.mp hx with rfl | hRest
          · exact Or.inl (List.any_eq_true.mp hSome)
          · exact Or.inr ⟨hRest, hSelf⟩
      · apply ih
        rcases h with ⟨y, hy, hSame⟩ | ⟨hx, hSelf⟩
        · exact Or.inl ⟨y, List.mem_cons_of_mem _ hy, hSame⟩
        · rcases List.mem_cons.mp hx with rfl | hRest
          · exact Or.inl ⟨x, List.mem_cons_self, hSelf⟩
          · exact Or.inr ⟨hRest, hSelf⟩

/- Nothing is kept of elements that are there. -/
theorem keepFirst_eq_reverse
    (h : ∀ x ∈ items, ∃ y ∈ kept, same y x = true) :
    keepFirst same kept items = kept.reverse := by
  induction items with
  | nil => rfl
  | cons x rest ih =>
      rw [keepFirst,
        if_pos (List.any_eq_true.mpr (h x List.mem_cons_self))]
      exact
        ih fun y hy => h y (List.mem_cons_of_mem _ hy)

/- Elements that were added once are not added again. -/
theorem keepFirst_append_self
    (h : ∀ x ∈ more, same x x = true) :
    keepFirst same [] (keepFirst same [] (items ++ more) ++ more) =
      keepFirst same [] (items ++ more) := by
  rw [keepFirst_keepFirst_append,
    keepFirst_append [] (items ++ more), keepFirst_eq_reverse,
    List.reverse_reverse]
  intro x hx
  have hIn : x ∈ items ++ more := List.mem_append_right _ hx
  obtain ⟨y, hy, hSame⟩ :
      ∃ y ∈ keepFirst same [] (items ++ more), same y x = true :=
    exists_same_keepFirst (Or.inr ⟨hIn, h x hx⟩)
  exact ⟨y, List.mem_reverse.mpr hy, hSame⟩

/- Of images those are kept whose elements are. -/
theorem keepFirst_map
    {β : Type}
    {f : β → α}
    {alike : β → β → Bool}
    (h : ∀ x y, same (f x) (f y) = alike x y)
    (kept items : List β) :
    keepFirst same (kept.map f) (items.map f) =
      (keepFirst alike kept items).map f := by
  induction items generalizing kept with
  | nil => simp [keepFirst]
  | cons x rest ih =>
      have hAny :
          ((kept.map f).any fun y => same y (f x)) =
            kept.any fun y => alike y x := by
        simp only [List.any_map, Function.comp_def, h]
      rw [List.map_cons, keepFirst, keepFirst, hAny]
      split
      · exact ih kept
      · exact ih (x :: kept)

end FirstElements

------------------------------------------------------------
-- Strings and Settings
------------------------------------------------------------

/- Strings are kept once. -/
theorem nodup_distinct
    (items : List String) :
    (distinct items).Nodup :=
  (keepFirst_pairwise List.Pairwise.nil items).imp ne_of_beq_false

/- Every string is kept, and no other. -/
theorem mem_distinct_iff
    {items : List String}
    {x : String} :
    x ∈ distinct items ↔ x ∈ items := by
  constructor
  · intro h
    exact (mem_of_mem_keepFirst h).resolve_left List.not_mem_nil
  · intro h
    have hKept : ∃ y ∈ distinct items, (y == x) = true :=
      exists_same_keepFirst (Or.inr ⟨h, beq_self_eq_true x⟩)
    rcases hKept with ⟨y, hy, hSame⟩
    rwa [← eq_of_beq hSame]

/- The strings of a list are kept without their repetitions. -/
theorem distinct_eq_eraseDups (items : List String) :
    distinct items = items.eraseDups := by
  suffices hLoop :
      ∀ kept : List String,
        keepFirst (· == ·) kept items =
          List.eraseDupsBy.loop (· == ·) items kept from
    hLoop []
  induction items with
  | nil => exact fun _ => rfl
  | cons x rest ih =>
      intro kept
      have hAny :
          (kept.any fun y => y == x) = kept.any (x == ·) := by
        simp only [BEq.comm]
      rw [keepFirst, List.eraseDupsBy.loop, hAny]
      cases kept.any (x == ·)
      · exact ih (x :: kept)
      · exact ih kept

/- Strings may be kept before others are added. -/
theorem distinct_append
    (items more : List String) :
    distinct (items ++ more) = distinct (distinct items ++ more) :=
  (keepFirst_keepFirst_append items more).symm

/- Strings that were added once are not added again. -/
theorem distinct_append_self
    (items more : List String) :
    distinct (distinct (items ++ more) ++ more) =
      distinct (items ++ more) :=
  keepFirst_append_self fun x _ => beq_self_eq_true x

/- What can be looked up is kept, each at its first place. -/
theorem distinctKeys_eq_ok_iff
    {items kept : List Setting} :
    distinctKeys items = .ok kept ↔
      (∀ x ∈ items, x.isKey = true) ∧
        keepFirst Setting.sameKey [] items = kept := by
  unfold distinctKeys
  rw [← List.all_eq_true]
  split
  · rename_i hKeys
    rw [Except.ok.injEq, and_iff_right hKeys]
  · rename_i hKeys
    constructor
    · rintro ⟨⟩
    · exact fun h => absurd h.1 hKeys

/- What is kept can be looked up. -/
theorem isKey_of_distinctKeys
    {items kept : List Setting}
    (h : distinctKeys items = .ok kept) :
    ∀ x ∈ kept, x.isKey = true := by
  rcases distinctKeys_eq_ok_iff.mp h with ⟨hKeys, rfl⟩
  intro x hx
  exact hKeys x
    ((mem_of_mem_keepFirst hx).resolve_left List.not_mem_nil)

/- Settings may be kept before others are added. -/
theorem distinctKeys_append
    (items more : List Setting) :
    distinctKeys (items ++ more) =
      (distinctKeys items).bind fun kept =>
        distinctKeys (kept ++ more) := by
  cases hItems : distinctKeys items with
  | error e =>
      unfold distinctKeys at hItems ⊢
      split at hItems
      · cases hItems
      · rename_i hKeys
        rw [List.all_append, if_neg]
        · exact hItems
        · rw [Bool.and_eq_true]
          exact fun hBoth => hKeys hBoth.1
  | ok kept =>
      have hKept := isKey_of_distinctKeys hItems
      rcases distinctKeys_eq_ok_iff.mp hItems with ⟨hKeys, hEq⟩
      rw [← List.all_eq_true] at hKeys hKept
      change _ = distinctKeys (kept ++ more)
      unfold distinctKeys
      rw [List.all_append, List.all_append, hKeys, hKept, ← hEq,
        keepFirst_keepFirst_append]

/- Settings that were added once are not added again. -/
theorem distinctKeys_append_self
    {items more kept : List Setting}
    (h : distinctKeys (items ++ more) = .ok kept)
    (hSame : ∀ x ∈ more, x.isKey = true → x.sameKey x = true) :
    distinctKeys (kept ++ more) = .ok kept := by
  have hKept := isKey_of_distinctKeys h
  rcases distinctKeys_eq_ok_iff.mp h with ⟨hKeys, rfl⟩
  have hMore : ∀ x ∈ more, x.isKey = true :=
    fun x hx => hKeys x (List.mem_append_right _ hx)
  refine distinctKeys_eq_ok_iff.mpr ⟨?_, ?_⟩
  · intro x hx
    rcases List.mem_append.mp hx with hOld | hNew
    · exact hKept x hOld
    · exact hMore x hNew
  · exact
      keepFirst_append_self fun x hx =>
        hSame x hx (hMore x hx)

end CommentLint
