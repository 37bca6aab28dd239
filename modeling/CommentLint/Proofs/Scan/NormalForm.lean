import CommentLint.Proofs.Scan.Merging
import Mathlib.Data.List.Induction
import Mathlib.Data.Prod.Lex
import Mathlib.Data.String.Basic

/-
  Merged violations as a normal form.

  Violations at one spot, which differ in their messages only,
  stand in the order in which their keys first occur.  Sorting
  leaves that order alone, so that it and the last violation
  of each key are all that merging depends on.  Both are the
  same of violations and of what merging makes of them, before
  and behind others.

  Key definitions include:
    * `Violation.Key.spot`
    * `Violation.firstAt`
    * `Violation.Precedes`
    * `Violation.OrdersAlike`

  Key results include:
    * `Violation.merged_pairwise_precedes`
    * `Violation.OrdersAlike.append`
    * `Violation.ordersAlike_merged`
    * `Violation.merged_isNormalForm`
-/

namespace CommentLint

namespace Violation

------------------------------------------------------------
-- Spots
------------------------------------------------------------

/-
  The file, the offset and the rule of a key, in the order of
  the first in which keys differ.
-/
def Key.spot (k : Key) : String ×ₗ Int ×ₗ String :=
  toLex (k.path, toLex (k.offset, k.ruleId))

/- Violations are sorted by the spots of their keys. -/
theorem le_iff_spot_le
    {v w : Violation} :
    le v w = true ↔ v.key.spot ≤ w.key.spot := by
  unfold Key.spot
  rw [le_iff, Prod.Lex.toLex_le_toLex, Prod.Lex.toLex_le_toLex]
  rfl

------------------------------------------------------------
-- First Occurrences
------------------------------------------------------------

/- The place at which a key first occurs, or the end. -/
def firstAt
    (k : Key)
    (vs : List Violation) : Nat :=
  (vs.map key).idxOf k

/-
  A violation precedes another one of a list: by its spot or,
  at one spot, by the first occurrence of its key.
-/
def Precedes
    (vs : List Violation)
    (v w : Violation) : Prop :=
  v.key.spot < w.key.spot ∨
    v.key.spot = w.key.spot ∧
      firstAt v.key vs < firstAt w.key vs

section Occurrences

variable {k l : Key}
variable {v w : Violation}
variable {found vs ws : List Violation}

/- Of two violations one at most precedes the other. -/
theorem Precedes.asymm
    (h : Precedes vs v w) :
    ¬ Precedes vs w v := by
  rintro (hLt' | ⟨hSpot', hFirst'⟩)
  · rcases h with hLt | ⟨hSpot, _⟩
    · exact lt_asymm hLt hLt'
    · exact hLt'.ne hSpot.symm
  · rcases h with hLt | ⟨_, hFirst⟩
    · exact hLt.ne hSpot'.symm
    · exact Nat.lt_asymm hFirst hFirst'

/- A key that occurs does so before the end. -/
theorem firstAt_lt_length_iff :
    firstAt k vs < vs.length ↔ k ∈ vs.map key := by
  rw [← List.idxOf_lt_length_iff, List.length_map]
  rfl

/- A key that does not occur counts as one at the end. -/
theorem firstAt_le_length
    (k : Key)
    (vs : List Violation) :
    firstAt k vs ≤ vs.length := by
  rw [← List.length_map key]
  exact List.idxOf_le_length

/- What follows does not move the occurrence of a key. -/
theorem firstAt_append_of_mem
    (h : k ∈ vs.map key)
    (ws : List Violation) :
    firstAt k (vs ++ ws) = firstAt k vs := by
  unfold firstAt
  rw [List.map_append, List.idxOf_append_of_mem h]

/- Any other key occurs behind. -/
theorem firstAt_append_of_not_mem
    (h : k ∉ vs.map key)
    (ws : List Violation) :
    firstAt k (vs ++ ws) = firstAt k ws + vs.length := by
  unfold firstAt
  rw [List.map_append, List.idxOf_append, if_neg h,
    List.length_map]

/- The keys after an insertion: a new key comes last. -/
theorem keys_insert
    (v : Violation)
    (found : List Violation) :
    (insert v found).map key =
      if v.key ∈ found.map key then found.map key
      else found.map key ++ [v.key] := by
  induction found with
  | nil => rfl
  | cons u rest ih =>
      rw [insert]
      by_cases hKey : u.key = v.key
      · rw [if_pos hKey, List.map_cons, List.map_cons, hKey,
          if_pos List.mem_cons_self]
      · rw [if_neg hKey, List.map_cons, List.map_cons, ih]
        by_cases hLater : v.key ∈ rest.map key
        · rw [if_pos hLater,
            if_pos (List.mem_cons_of_mem _ hLater)]
        · have hNew : v.key ∉ u.key :: rest.map key := by
            rw [List.mem_cons, not_or]
            exact ⟨Ne.symm hKey, hLater⟩
          rw [if_neg hLater, if_neg hNew, List.cons_append]

------------------------------------------------------------
-- Insertion in a Row
------------------------------------------------------------

/- Violations without repetitions, before they are sorted. -/
def inserted (vs : List Violation) : List Violation :=
  vs.foldl (fun found v => insert v found) []

theorem inserted_append_singleton
    (vs : List Violation)
    (v : Violation) :
    inserted (vs ++ [v]) = insert v (inserted vs) := by
  unfold inserted
  rw [List.foldl_append]
  rfl

/- Insertion leaves the keys that there are. -/
theorem mem_keys_inserted :
    k ∈ (inserted vs).map key ↔ k ∈ vs.map key := by
  induction vs using List.reverseRecOn with
  | nil => rfl
  | append_singleton vs v ih =>
      rw [inserted_append_singleton, mem_keys_insert_iff, ih,
        List.map_append, List.mem_append, List.map_singleton,
        List.mem_singleton, or_comm]

/- Keys are inserted in the order in which they first occur. -/
theorem inserted_pairwise_firstAt
    (vs : List Violation) :
    ((inserted vs).map key).Pairwise fun k l =>
      firstAt k vs < firstAt l vs := by
  induction vs using List.reverseRecOn with
  | nil => exact List.Pairwise.nil
  | append_singleton vs v ih =>
      have hBefore :
          ((inserted vs).map key).Pairwise fun k l =>
            firstAt k (vs ++ [v]) < firstAt l (vs ++ [v]) := by
        apply ih.imp_of_mem
        intro k l hk hl hLt
        rwa [firstAt_append_of_mem (mem_keys_inserted.mp hk),
          firstAt_append_of_mem (mem_keys_inserted.mp hl)]
      rw [inserted_append_singleton, keys_insert]
      split
      · exact hBefore
      · rename_i hNew
        rw [List.pairwise_append]
        refine ⟨hBefore, List.pairwise_singleton _ _, ?_⟩
        intro k hk l hl
        rw [List.mem_singleton.mp hl]
        rw [mem_keys_inserted] at hk hNew
        rw [firstAt_append_of_mem hk,
          firstAt_append_of_not_mem hNew]
        have hIn := firstAt_lt_length_iff.mpr hk
        omega

------------------------------------------------------------
-- The Order of Merged Violations
------------------------------------------------------------

/- Sorting leaves the violations at one spot in their order. -/
theorem filter_merged_spot
    (vs : List Violation)
    (spot : String ×ₗ Int ×ₗ String) :
    ((merged vs).filter fun v => v.key.spot = spot) =
      (inserted vs).filter fun v => v.key.spot = spot := by
  have hSorted :
      ((inserted vs).filter fun v =>
        v.key.spot = spot).Pairwise fun v w =>
          le v w = true := by
    apply List.pairwise_of_forall_mem_list
    intro v hv w hw
    have hSpot := of_decide_eq_true (List.mem_filter.mp hv).2
    have hSpot' := of_decide_eq_true (List.mem_filter.mp hw).2
    exact le_iff_spot_le.mpr (hSpot.trans hSpot'.symm).le
  have hSublist :
      ((inserted vs).filter fun v => v.key.spot = spot).Sublist
        (merged vs) :=
    List.sublist_mergeSort le_trans le_total hSorted
      List.filter_sublist
  have hFiltered :=
    hSublist.filter fun v => v.key.spot = spot
  rw [List.filter_filter] at hFiltered
  simp only [Bool.and_self] at hFiltered
  refine (hFiltered.eq_of_length_le ?_).symm
  apply Nat.le_of_eq
  exact
    ((List.mergeSort_perm (inserted vs) le).filter
      _).length_eq

/- What is kept is in order, by spots and first occurrences. -/
theorem merged_pairwise_precedes
    (vs : List Violation) :
    (merged vs).Pairwise (Precedes vs) := by
  rw [List.pairwise_iff_forall_sublist]
  intro v w hSublist
  have hLe :=
    List.pairwise_iff_forall_sublist.mp merged_pairwise_le
      hSublist
  rcases (le_iff_spot_le.mp hLe).lt_or_eq with hLt | hSpot
  · exact Or.inl hLt
  · refine Or.inr ⟨hSpot, ?_⟩
    have hGroup :=
      hSublist.filter fun u => u.key.spot = w.key.spot
    rw [filter_merged_spot, List.filter_cons_of_pos (by simpa),
      List.filter_cons_of_pos (by simp), List.filter_nil]
      at hGroup
    have hKeys :=
      (hGroup.trans List.filter_sublist).map key
    exact
      List.pairwise_iff_forall_sublist.mp
        (inserted_pairwise_firstAt vs) hKeys

/- Merging keeps the keys that there are. -/
theorem mem_keys_merged :
    k ∈ (merged vs).map key ↔ k ∈ vs.map key := by
  have hPerm := (List.mergeSort_perm (inserted vs) le).map key
  exact hPerm.mem_iff.trans mem_keys_inserted

/- Each key is kept once. -/
theorem nodup_keys_merged
    (vs : List Violation) :
    ((merged vs).map key).Nodup :=
  List.pairwise_map.mpr merged_pairwise_key_ne

------------------------------------------------------------
-- Lists That Order Alike
------------------------------------------------------------

/-
  Two lists have the same keys, and those at one spot first
  occur in the same order.
-/
structure OrdersAlike
    (vs ws : List Violation) : Prop where
  mem : ∀ k, k ∈ vs.map key ↔ k ∈ ws.map key
  first :
    ∀ k l : Key,
      k.spot = l.spot →
        (firstAt k vs < firstAt l vs ↔
          firstAt k ws < firstAt l ws)

/- Merging orders as its violations do. -/
theorem ordersAlike_merged
    (vs : List Violation) :
    OrdersAlike (merged vs) vs := by
  have hOrder :
      ∀ {k l : Key}, k.spot = l.spot →
        k ∈ (merged vs).map key → l ∈ (merged vs).map key →
          firstAt k (merged vs) < firstAt l (merged vs) →
            firstAt k vs < firstAt l vs := by
    intro k l hSpot hk hl hLt
    have hKeys :
        ((merged vs).map key).Pairwise fun k l =>
          k.spot < l.spot ∨
            k.spot = l.spot ∧ firstAt k vs < firstAt l vs :=
      List.pairwise_map.mpr (merged_pairwise_precedes vs)
    have hPair :=
      List.pairwise_iff_getElem.mp hKeys _ _
        (List.idxOf_lt_length_iff.mpr hk)
        (List.idxOf_lt_length_iff.mpr hl) hLt
    rw [List.getElem_idxOf, List.getElem_idxOf] at hPair
    rcases hPair with hLess | ⟨_, hFirst⟩
    · exact absurd hSpot hLess.ne
    · exact hFirst
  refine ⟨fun k => mem_keys_merged, ?_⟩
  intro k l hSpot
  by_cases hk : k ∈ (merged vs).map key
  · by_cases hl : l ∈ (merged vs).map key
    · refine ⟨hOrder hSpot hk hl, ?_⟩
      intro hLt
      by_contra hNot
      rcases Nat.lt_or_eq_of_le (Nat.le_of_not_lt hNot) with
        hGt | hEq
      · have hBack := hOrder hSpot.symm hl hk hGt
        omega
      · have hSame : l = k := (List.idxOf_inj hl).mp hEq
        rw [hSame] at hLt
        exact Nat.lt_irrefl _ hLt
    · -- A key that does not occur counts as one at the end.
      have hIn := firstAt_lt_length_iff.mpr hk
      have hIn' :=
        firstAt_lt_length_iff.mpr (mem_keys_merged.mp hk)
      have hOut := mt firstAt_lt_length_iff.mp hl
      have hOut' :=
        mt firstAt_lt_length_iff.mp
          (mt mem_keys_merged.mpr hl)
      omega
  · have hOut := mt firstAt_lt_length_iff.mp hk
    have hOut' :=
      mt firstAt_lt_length_iff.mp (mt mem_keys_merged.mpr hk)
    have hEnd := firstAt_le_length l (merged vs)
    have hEnd' := firstAt_le_length l vs
    omega

/- Lists that order alike do so in a row as well. -/
theorem OrdersAlike.append
    {vs' ws' : List Violation}
    (h : OrdersAlike vs vs')
    (h' : OrdersAlike ws ws') :
    OrdersAlike (vs ++ ws) (vs' ++ ws') := by
  refine ⟨?_, ?_⟩
  · intro k
    rw [List.map_append, List.map_append, List.mem_append,
      List.mem_append, h.mem, h'.mem]
  · intro k l hSpot
    have hFirst := h.first k l hSpot
    have hLater := h'.first k l hSpot
    by_cases hk : k ∈ vs.map key
    · have hk' := (h.mem k).mp hk
      rw [firstAt_append_of_mem hk, firstAt_append_of_mem hk']
      by_cases hl : l ∈ vs.map key
      · have hl' := (h.mem l).mp hl
        rwa [firstAt_append_of_mem hl,
          firstAt_append_of_mem hl']
      · have hl' := mt (h.mem l).mpr hl
        rw [firstAt_append_of_not_mem hl,
          firstAt_append_of_not_mem hl']
        have hIn := firstAt_lt_length_iff.mpr hk
        have hIn' := firstAt_lt_length_iff.mpr hk'
        omega
    · have hk' := mt (h.mem k).mpr hk
      rw [firstAt_append_of_not_mem hk,
        firstAt_append_of_not_mem hk']
      by_cases hl : l ∈ vs.map key
      · have hl' := (h.mem l).mp hl
        rw [firstAt_append_of_mem hl, firstAt_append_of_mem hl']
        have hIn := firstAt_lt_length_iff.mpr hl
        have hIn' := firstAt_lt_length_iff.mpr hl'
        omega
      · have hl' := mt (h.mem l).mpr hl
        rw [firstAt_append_of_not_mem hl,
          firstAt_append_of_not_mem hl']
        omega

/- What precedes in a list precedes in one that orders alike. -/
theorem OrdersAlike.precedes
    (h : OrdersAlike vs ws)
    (hPrecedes : Precedes vs v w) :
    Precedes ws v w := by
  rcases hPrecedes with hLt | ⟨hSpot, hFirst⟩
  · exact Or.inl hLt
  · exact Or.inr ⟨hSpot, (h.first _ _ hSpot).mp hFirst⟩

/-
  Lists that order alike and have the same last violations
  are merged into the same.
-/
theorem OrdersAlike.merged_eq
    (h : OrdersAlike vs ws)
    (hLast : ∀ v : Violation, v.IsLast vs ↔ v.IsLast ws) :
    merged vs = merged ws := by
  have hMerged :
      (merged vs).Pairwise (Precedes ws) :=
    (merged_pairwise_precedes vs).imp h.precedes
  apply List.Perm.eq_of_pairwise _ hMerged
    (merged_pairwise_precedes ws)
  · rw [List.perm_ext_iff_of_nodup
      (nodup_keys_merged vs).of_map
      (nodup_keys_merged ws).of_map]
    intro v
    rw [mem_merged_iff, mem_merged_iff, hLast]
  · intro v w _ _ hPrecedes hPrecedes'
    exact absurd hPrecedes' hPrecedes.asymm

------------------------------------------------------------
-- Last Violations in a Row
------------------------------------------------------------

/- The last of a key is behind, or before where none is behind. -/
theorem isLast_append_iff :
    v.IsLast (vs ++ ws) ↔
      v.IsLast ws ∨ v.IsLast vs ∧ v.key ∉ ws.map key := by
  induction vs with
  | nil => simp [IsLast]
  | cons u rest ih =>
      rw [List.cons_append, isLast_cons_iff, ih,
        isLast_cons_iff, List.forall_mem_append]
      have hKeys :
          (∀ x ∈ ws, x.key ≠ v.key) ↔ v.key ∉ ws.map key := by
        simp
      rw [hKeys]
      tauto

/- Where keys come once, each violation is the last of its key. -/
theorem isLast_merged_iff :
    v.IsLast (merged vs) ↔ v.IsLast vs := by
  refine ⟨fun h => mem_merged_iff.mp h.mem, ?_⟩
  intro hLast
  rcases List.append_of_mem (mem_merged_iff.mpr hLast) with
    ⟨before, after, hSplit⟩
  refine ⟨before, after, hSplit, ?_⟩
  intro w hw hKey
  have hNodup := nodup_keys_merged vs
  rw [hSplit, List.map_append, List.map_cons,
    List.nodup_append, List.nodup_cons] at hNodup
  exact hNodup.2.1.1 (hKey ▸ List.mem_map_of_mem hw)

------------------------------------------------------------
-- Merging as a Normal Form
------------------------------------------------------------

/- Merging may be done before violations are put together. -/
theorem merged_append_merged
    (vs ws : List Violation) :
    merged (merged vs ++ merged ws) = merged (vs ++ ws) := by
  apply
    ((ordersAlike_merged vs).append
      (ordersAlike_merged ws)).merged_eq
  intro v
  rw [isLast_append_iff, isLast_append_iff, isLast_merged_iff,
    isLast_merged_iff, mem_keys_merged]

/-
  Merging keeps the last violation of each key, and each key
  once.  What is kept is in order of file, offset and rule,
  and at one spot in the order of first occurrence.  It is the
  same when the violations were merged in parts before.
-/
theorem merged_isNormalForm
    (vs ws : List Violation) :
    ((merged vs).map key).Nodup ∧
      (∀ k, k ∈ (merged vs).map key ↔ k ∈ vs.map key) ∧
      (∀ v, v ∈ merged vs ↔ v.IsLast vs) ∧
      (merged vs).Pairwise (Precedes vs) ∧
      merged (vs ++ ws) = merged (merged vs ++ merged ws) ∧
      merged (merged vs) = merged vs := by
  have hNone : merged [] = [] := List.mergeSort_nil
  have hTwice : merged (merged vs) = merged vs := by
    have hAppend := merged_append_merged vs []
    rwa [hNone, List.append_nil, List.append_nil] at hAppend
  exact
    ⟨nodup_keys_merged vs, fun k => mem_keys_merged,
      fun v => mem_merged_iff, merged_pairwise_precedes vs,
      (merged_append_merged vs ws).symm, hTwice⟩

end Occurrences

end Violation

end CommentLint
