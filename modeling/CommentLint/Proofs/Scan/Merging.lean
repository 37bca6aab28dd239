import CommentLint.Scan.Merged
import Mathlib.Data.List.Nodup
import Mathlib.Data.List.Perm.Basic

/-
  Merging violations.

  Of all violations with one key the last is kept, so that the
  keys of those kept are different.  What is kept is in order
  of file, offset and rule.  Where violations with one key are
  the same violation, none is lost.

  Key definitions include:
    * `Violation.IsLast`
    * `Violation.KeysTell`
    * `Violation.Before`

  Key results include:
    * `Violation.mem_merged_iff`
    * `Violation.mem_merged_iff_mem`
    * `Violation.merged_pairwise_before`
    * `Violation.Before.eq_of_mem_iff`
-/

namespace CommentLint

namespace Violation

variable {v w : Violation}
variable {found vs : List Violation}

------------------------------------------------------------
-- Inserting by Key
------------------------------------------------------------

/- The key of a violation joins those that are there. -/
theorem mem_keys_insert_iff
    {k : Key} :
    k ∈ (insert w found).map key ↔
      k = w.key ∨ k ∈ found.map key := by
  induction found with
  | nil => simp [insert]
  | cons u rest ih =>
      rw [insert]
      by_cases hKey : u.key = w.key
      · rw [if_pos hKey]
        simp [hKey]
      · rw [if_neg hKey, List.map_cons, List.map_cons,
          List.mem_cons, List.mem_cons, ih]
        exact or_left_comm

/- Keys stay different. -/
theorem nodup_keys_insert
    (h : (found.map key).Nodup) :
    ((insert w found).map key).Nodup := by
  induction found with
  | nil => simp [insert]
  | cons u rest ih =>
      rw [List.map_cons, List.nodup_cons] at h
      rw [insert]
      by_cases hKey : u.key = w.key
      · rw [if_pos hKey, List.map_cons, List.nodup_cons, ← hKey]
        exact h
      · rw [if_neg hKey, List.map_cons, List.nodup_cons,
          mem_keys_insert_iff, not_or]
        exact ⟨⟨hKey, h.1⟩, ih h.2⟩

/- A violation takes the place of the one with its key. -/
theorem mem_insert_iff
    (h : (found.map key).Nodup) :
    v ∈ insert w found ↔
      v = w ∨ v ∈ found ∧ v.key ≠ w.key := by
  induction found with
  | nil => simp [insert]
  | cons u rest ih =>
      rw [List.map_cons, List.nodup_cons] at h
      rw [insert]
      by_cases hKey : u.key = w.key
      · have hRest : v ∈ rest → v.key ≠ w.key := by
          intro hMem hSame
          apply h.1
          rw [hKey, ← hSame]
          exact List.mem_map_of_mem hMem
        rw [if_pos hKey, List.mem_cons, List.mem_cons]
        constructor
        · rintro (hSame | hMem)
          · exact Or.inl hSame
          · exact Or.inr ⟨Or.inr hMem, hRest hMem⟩
        · rintro (hSame | ⟨rfl | hMem, hNe⟩)
          · exact Or.inl hSame
          · exact absurd hKey hNe
          · exact Or.inr hMem
      · rw [if_neg hKey, List.mem_cons, List.mem_cons, ih h.2]
        constructor
        · rintro (rfl | hSame | ⟨hMem, hNe⟩)
          · exact Or.inr ⟨Or.inl rfl, hKey⟩
          · exact Or.inl hSame
          · exact Or.inr ⟨Or.inr hMem, hNe⟩
        · rintro (hSame | ⟨hSame | hMem, hNe⟩)
          · exact Or.inr (Or.inl hSame)
          · exact Or.inl hSame
          · exact Or.inr (Or.inr ⟨hMem, hNe⟩)

------------------------------------------------------------
-- The Last of Each Key
------------------------------------------------------------

/- A violation that none with its key follows. -/
def IsLast
    (v : Violation)
    (vs : List Violation) : Prop :=
  ∃ before after,
    vs = before ++ v :: after ∧ ∀ w ∈ after, w.key ≠ v.key

/- The last of its key is one of the violations. -/
theorem IsLast.mem
    (h : v.IsLast vs) :
    v ∈ vs := by
  rcases h with ⟨before, after, rfl, _⟩
  simp

/- A violation in front is the last if none follows it. -/
theorem isLast_cons_iff :
    v.IsLast (w :: vs) ↔
      v.IsLast vs ∨ v = w ∧ ∀ u ∈ vs, u.key ≠ v.key := by
  constructor
  · rintro ⟨before, after, hSplit, hAfter⟩
    cases before with
    | nil =>
        cases hSplit
        exact Or.inr ⟨rfl, hAfter⟩
    | cons u before =>
        cases hSplit
        exact Or.inl ⟨before, after, rfl, hAfter⟩
  · rintro (⟨before, after, rfl, hAfter⟩ | ⟨rfl, hAfter⟩)
    · exact ⟨w :: before, after, rfl, hAfter⟩
    · exact ⟨[], vs, rfl, hAfter⟩

/- Every key that occurs has a last violation. -/
theorem exists_isLast
    {k : Key}
    (h : k ∈ vs.map key) :
    ∃ v : Violation, v.IsLast vs ∧ v.key = k := by
  induction vs with
  | nil => cases h
  | cons u rest ih =>
      by_cases hLater : k ∈ rest.map key
      · rcases ih hLater with ⟨v, hLast, hKey⟩
        exact ⟨v, isLast_cons_iff.mpr (Or.inl hLast), hKey⟩
      · rw [List.map_cons, List.mem_cons] at h
        rcases h with rfl | hRest
        · refine ⟨u, isLast_cons_iff.mpr (Or.inr ⟨rfl, ?_⟩), rfl⟩
          intro w hMem hSame
          exact hLater (hSame ▸ List.mem_map_of_mem hMem)
        · exact absurd hRest hLater

/- Keys stay different over many violations. -/
theorem nodup_keys_foldl
    (h : (found.map key).Nodup) :
    ((vs.foldl (fun found v => insert v found) found).map
      key).Nodup := by
  induction vs generalizing found with
  | nil => exact h
  | cons w rest ih => exact ih (nodup_keys_insert h)

/- What is there after many violations were inserted. -/
theorem mem_foldl_insert_iff
    (h : (found.map key).Nodup) :
    v ∈ vs.foldl (fun found v => insert v found) found ↔
      v.IsLast vs ∨ v ∈ found ∧ ∀ w ∈ vs, w.key ≠ v.key := by
  induction vs generalizing found with
  | nil => simp [IsLast]
  | cons u rest ih =>
      rw [List.foldl_cons, ih (nodup_keys_insert h),
        mem_insert_iff h, isLast_cons_iff, List.forall_mem_cons]
      constructor
      · rintro (hLast | ⟨rfl | ⟨hMem, hNe⟩, hRest⟩)
        · exact Or.inl (Or.inl hLast)
        · exact Or.inl (Or.inr ⟨rfl, hRest⟩)
        · exact Or.inr ⟨hMem, Ne.symm hNe, hRest⟩
      · rintro ((hLast | ⟨rfl, hRest⟩) | ⟨hMem, hNe, hRest⟩)
        · exact Or.inl hLast
        · exact Or.inr ⟨Or.inl rfl, hRest⟩
        · exact Or.inr ⟨Or.inr ⟨hMem, Ne.symm hNe⟩, hRest⟩

------------------------------------------------------------
-- Merging
------------------------------------------------------------

/- Merging keeps the last violation of each key. -/
theorem mem_merged_iff :
    v ∈ merged vs ↔ v.IsLast vs := by
  unfold merged
  rw [List.mem_mergeSort, mem_foldl_insert_iff (by simp)]
  simp

/- The violations that are kept have different keys. -/
theorem merged_pairwise_key_ne :
    (merged vs).Pairwise fun v w => v.key ≠ w.key := by
  have hNodup :
      ((merged vs).map key).Nodup := by
    unfold merged
    rw [((List.mergeSort_perm _ le).map key).nodup_iff]
    exact nodup_keys_foldl (by simp)
  exact List.pairwise_map.mp hNodup

/- Violations of which equal keys tell that they are the same. -/
def KeysTell (vs : List Violation) : Prop :=
  ∀ v ∈ vs, ∀ w ∈ vs, v.key = w.key → v = w

/- Where keys tell violations apart, none of them is lost. -/
theorem mem_merged_iff_mem
    (h : KeysTell vs) :
    v ∈ merged vs ↔ v ∈ vs := by
  rw [mem_merged_iff]
  constructor
  · exact IsLast.mem
  · intro hMem
    rcases exists_isLast (List.mem_map_of_mem hMem) with
      ⟨w, hLast, hKey⟩
    rwa [← h w hLast.mem v hMem hKey]

------------------------------------------------------------
-- The Order of What Is Kept
------------------------------------------------------------

/- The order is by file, then by offset, then by rule. -/
theorem le_iff :
    le v w = true ↔
      v.location.path < w.location.path ∨
        v.location.path = w.location.path ∧
          (v.location.offset < w.location.offset ∨
            v.location.offset = w.location.offset ∧
              v.ruleId ≤ w.ruleId) := by
  simp [le]

/- Of two violations one is not after the other. -/
theorem le_total (v w : Violation) :
    (le v w || le w v) = true := by
  rw [Bool.or_eq_true, le_iff, le_iff]
  by_cases hPath : v.location.path = w.location.path
  · rcases Int.lt_trichotomy v.location.offset
        w.location.offset with
      hOffset | hOffset | hOffset
    · exact Or.inl (Or.inr ⟨hPath, Or.inl hOffset⟩)
    · rcases String.le_total v.ruleId w.ruleId with
        hRule | hRule
      · exact Or.inl (Or.inr ⟨hPath, Or.inr ⟨hOffset, hRule⟩⟩)
      · exact
          Or.inr
            (Or.inr
              ⟨hPath.symm, Or.inr ⟨hOffset.symm, hRule⟩⟩)
    · exact Or.inr (Or.inr ⟨hPath.symm, Or.inl hOffset⟩)
  · rcases String.le_total v.location.path w.location.path with
      hLe | hLe
    · exact Or.inl (Or.inl (Std.lt_of_le_of_ne hLe hPath))
    · exact
        Or.inr (Or.inl (Std.lt_of_le_of_ne hLe (Ne.symm hPath)))

/- The order goes on from one violation to the next. -/
theorem le_trans
    (u v w : Violation)
    (h : le u v = true)
    (h' : le v w = true) :
    le u w = true := by
  rw [le_iff] at h h' ⊢
  rcases h with hPath | ⟨hPath, h⟩
  · rcases h' with hPath' | ⟨hPath', _⟩
    · exact Or.inl (String.lt_trans hPath hPath')
    · exact Or.inl (hPath' ▸ hPath)
  · rcases h' with hPath' | ⟨hPath', h'⟩
    · exact Or.inl (hPath ▸ hPath')
    · refine Or.inr ⟨hPath.trans hPath', ?_⟩
      rcases h with hOffset | ⟨hOffset, hRule⟩
      · rcases h' with hOffset' | ⟨hOffset', _⟩
        · exact Or.inl (Int.lt_trans hOffset hOffset')
        · exact Or.inl (hOffset' ▸ hOffset)
      · rcases h' with hOffset' | ⟨hOffset', hRule'⟩
        · exact Or.inl (hOffset ▸ hOffset')
        · exact
            Or.inr
              ⟨hOffset.trans hOffset', String.le_trans hRule hRule'⟩

/- What is kept is in order. -/
theorem merged_pairwise_le :
    (merged vs).Pairwise fun v w => le v w = true :=
  List.pairwise_mergeSort le_trans le_total _

/- The strict order by file, and in it by offset. -/
def Before (v w : Violation) : Prop :=
  v.location.path < w.location.path ∨
    v.location.path = w.location.path ∧
      v.location.offset < w.location.offset

/- Of two violations one at most comes before the other. -/
theorem Before.asymm
    (h : v.Before w) :
    ¬ w.Before v := by
  rintro (hPath' | ⟨hPath', hOffset'⟩)
  · rcases h with hPath | ⟨hPath, _⟩
    · exact String.lt_asymm hPath hPath'
    · exact String.lt_irrefl _ (hPath ▸ hPath')
  · rcases h with hPath | ⟨_, hOffset⟩
    · exact String.lt_irrefl _ (hPath' ▸ hPath)
    · exact Int.lt_asymm hOffset hOffset'

/- At one place of one file neither comes first. -/
theorem not_before
    (hPath : v.location.path = w.location.path)
    (hOffset : v.location.offset = w.location.offset) :
    ¬ v.Before w := by
  rintro (hLt | ⟨_, hLt⟩)
  · exact String.lt_irrefl _ (hPath ▸ hLt)
  · exact Int.lt_irrefl _ (hOffset ▸ hLt)

/- Violations in strict order are told by what they are. -/
theorem Before.eq_of_mem_iff
    {found' : List Violation}
    (h : found.Pairwise Before)
    (h' : found'.Pairwise Before)
    (hMem : ∀ v, v ∈ found ↔ v ∈ found') :
    found = found' := by
  have hNodup :
      ∀ {items : List Violation}, items.Pairwise Before →
        items.Nodup := by
    intro items hItems
    apply hItems.imp
    rintro v w hBefore rfl
    exact hBefore.asymm hBefore
  apply List.Perm.eq_of_pairwise _ h h'
  · exact
      (List.perm_ext_iff_of_nodup (hNodup h) (hNodup h')).mpr hMem
  · intro v w _ _ hBefore hBefore'
    exact absurd hBefore' hBefore.asymm

/- What one rule finds is kept in strict order. -/
theorem merged_pairwise_before
    {ruleId message : String}
    (h : ∀ v ∈ vs, v.ruleId = ruleId ∧ v.message = message) :
    (merged vs).Pairwise Before := by
  apply
    (merged_pairwise_le.and merged_pairwise_key_ne).imp_of_mem
  intro v w hMem hMem' hBoth
  rcases hBoth with ⟨hLe, hKey⟩
  rcases h v (mem_merged_iff.mp hMem).mem with ⟨hRule, hText⟩
  rcases h w (mem_merged_iff.mp hMem').mem with
    ⟨hRule', hText'⟩
  rcases le_iff.mp hLe with
    hPath | ⟨hPath, hOffset | ⟨hOffset, _⟩⟩
  · exact Or.inl hPath
  · exact Or.inr ⟨hPath, hOffset⟩
  · refine absurd ?_ hKey
    unfold key
    rw [hPath, hOffset, hRule, hRule', hText, hText']

end Violation

end CommentLint
