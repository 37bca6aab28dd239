import Mathlib.Data.List.Forall2
import Mathlib.Tactic.Common

/-
  Attempts: computations that give a value or an error.

  An attempt made of others succeeds when they do.  What is
  tried on every value of a list succeeds when it does on each
  of them, and gives their values in order.

  Key results include:
    * `bind_eq_ok_iff`
    * `exists_bind_iff`
    * `mapM_eq_ok_iff`
    * `exists_mapM_iff`
    * `mem_iff_of_mapM`
-/

namespace CommentLint

variable {α β ε ε' : Type}
variable {x : Except ε α}

------------------------------------------------------------
-- Single Attempts
------------------------------------------------------------

/- Two attempts in a row give what the second gives. -/
theorem bind_eq_ok_iff
    {f : α → Except ε β}
    {b : β} :
    (x >>= f) = .ok b ↔ ∃ a, x = .ok a ∧ f a = .ok b := by
  cases x <;> simp [bind, Except.bind]

/- An attempt whose value is changed gives the changed value. -/
theorem map_eq_ok_iff
    {f : α → β}
    {b : β} :
    x.map f = .ok b ↔ ∃ a, x = .ok a ∧ f a = b := by
  cases x <;> simp [Except.map]

/- An attempt whose error is changed gives the same value. -/
theorem mapError_eq_ok_iff
    {f : ε → ε'}
    {a : α} :
    x.mapError f = .ok a ↔ x = .ok a := by
  cases x <;> simp [Except.mapError]

/- Two attempts in a row fail when one of them does. -/
theorem bind_eq_error_iff
    {f : α → Except ε β}
    {e : ε} :
    (x >>= f) = .error e ↔
      x = .error e ∨ ∃ a, x = .ok a ∧ f a = .error e := by
  cases x <;> simp [bind, Except.bind]

/- An attempt fails whatever its value is changed to. -/
theorem map_eq_error_iff
    {f : α → β}
    {e : ε} :
    x.map f = .error e ↔ x = .error e := by
  cases x <;> simp [Except.map]

/- An attempt whose error is changed fails with the changed error. -/
theorem mapError_eq_error_iff
    {f : ε → ε'}
    {e' : ε'} :
    x.mapError f = .error e' ↔
      ∃ e, x = .error e ∧ f e = e' := by
  cases x <;> simp [Except.mapError]

/- To give a value outright succeeds. -/
theorem pure_eq_ok_iff
    {a b : α} :
    (pure a : Except ε α) = .ok b ↔ a = b := by
  simp [pure, Except.pure]

/- Two attempts in a row succeed when both do. -/
theorem exists_bind_iff
    {f : α → Except ε β} :
    (∃ b, (x >>= f) = .ok b) ↔
      ∃ a, x = .ok a ∧ ∃ b, f a = .ok b := by
  cases x <;> simp [bind, Except.bind]

/- An attempt succeeds whatever its value is changed to. -/
theorem exists_map_iff
    {f : α → β} :
    (∃ b, x.map f = .ok b) ↔ ∃ a, x = .ok a := by
  cases x <;> simp [Except.map]

/- What is tried on a value that may be missing, or a default. -/
theorem exists_elim_iff
    {value? : Option β}
    {default : α}
    {f : β → Except ε α} :
    (∃ a, value?.elim (.ok default) f = .ok a) ↔
      ∀ v, value? = some v → ∃ a, f v = .ok a := by
  cases value? <;> simp

------------------------------------------------------------
-- Attempts on Lists
------------------------------------------------------------

variable {f : α → Except ε β}
variable {items : List α}
variable {values : List β}

/- A list of attempts gives the value of each, in order. -/
theorem mapM_eq_ok_iff :
    items.mapM f = .ok values ↔
      List.Forall₂ (fun v b => f v = .ok b) items values := by
  induction items generalizing values with
  | nil =>
      rw [List.mapM_nil, pure_eq_ok_iff, List.forall₂_nil_left_iff]
      exact eq_comm
  | cons v rest ih =>
      simp only [List.mapM_cons, bind_eq_ok_iff, pure_eq_ok_iff,
        ih, List.forall₂_cons_left_iff]
      constructor
      · rintro ⟨b, hHead, others, hRest, rfl⟩
        exact ⟨b, others, hHead, hRest, rfl⟩
      · rintro ⟨b, others, hHead, hRest, rfl⟩
        exact ⟨b, hHead, others, hRest, rfl⟩

/- What is tried on every value succeeds when it does on each. -/
theorem exists_mapM_iff :
    (∃ values, items.mapM f = .ok values) ↔
      ∀ v ∈ items, ∃ b, f v = .ok b := by
  simp only [mapM_eq_ok_iff]
  induction items with
  | nil => simp
  | cons v rest ih =>
      simp only [List.forall_mem_cons, ← ih,
        List.forall₂_cons_left_iff]
      constructor
      · rintro ⟨_, b, others, hHead, hRest, _⟩
        exact ⟨⟨b, hHead⟩, others, hRest⟩
      · rintro ⟨⟨b, hHead⟩, others, hRest⟩
        exact ⟨b :: others, b, others, hHead, hRest, rfl⟩

/- The values of a list of attempts are those of each of them. -/
theorem mem_iff_of_mapM
    (h : items.mapM f = .ok values)
    {b : β} :
    b ∈ values ↔ ∃ v ∈ items, f v = .ok b := by
  have hAll := mapM_eq_ok_iff.mp h
  clear h
  induction hAll with
  | nil => simp
  | cons hHead _ ih =>
      rw [List.mem_cons, List.exists_mem_cons_iff, hHead,
        Except.ok.injEq]
      exact or_congr eq_comm ih

/- A list of attempts fails as one of them does. -/
theorem exists_error_of_mapM
    {e : ε}
    (h : items.mapM f = .error e) :
    ∃ v ∈ items, f v = .error e := by
  induction items with
  | nil => cases h
  | cons v rest ih =>
      rw [List.mapM_cons, bind_eq_error_iff] at h
      rcases h with hHead | ⟨b, _, hTail⟩
      · exact ⟨v, List.mem_cons_self, hHead⟩
      · rw [bind_eq_error_iff] at hTail
        rcases hTail with hRest | ⟨_, _, hPure⟩
        · rcases ih hRest with ⟨w, hw, hError⟩
          exact ⟨w, List.mem_cons_of_mem _ hw, hError⟩
        · cases hPure

/- There are as many values as attempts. -/
theorem length_eq_of_mapM
    (h : items.mapM f = .ok values) :
    values.length = items.length :=
  (mapM_eq_ok_iff.mp h).length_eq.symm

/- Where every value can be computed, the list of them can be. -/
theorem exists_mapM_eq_ok
    (h : ∀ v ∈ items, ∃ b, f v = .ok b) :
    ∃ values,
      items.mapM f = .ok values ∧
        values.length = items.length ∧
          ∀ b, b ∈ values ↔ ∃ v ∈ items, f v = .ok b := by
  rcases exists_mapM_iff.mpr h with ⟨values, hValues⟩
  exact
    ⟨values, hValues, length_eq_of_mapM hValues,
      fun _ => mem_iff_of_mapM hValues⟩

end CommentLint
