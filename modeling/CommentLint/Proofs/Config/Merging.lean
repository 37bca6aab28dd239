import CommentLint.Config.Merge
import CommentLint.Proofs.Config.Reading

/-
  Options that are merged into a configuration.

  Options that have their values can always be merged, but for
  a severity that is malformed.  The exception is a list that
  holds something that cannot be looked up: it cannot be made
  longer.

  Key definitions include:
    * `ScanOptions.IsGiven`
    * `Config.CanExtend`
    * `Config.IsOf`

  Key results include:
    * `Config.merge_cases`
    * `Config.exists_maxFileSizeKb_of_merge`
-/

namespace CommentLint

------------------------------------------------------------
-- Options with Values
------------------------------------------------------------

/- The options that need a value have one. -/
structure ScanOptions.IsGiven (o : ScanOptions) : Prop where
  exclude : .nothing ∉ o.exclude
  includeExt : .nothing ∉ o.includeExt
  enableRule : .nothing ∉ o.enableRule
  disableRule : .nothing ∉ o.disableRule
  severity : .nothing ∉ o.severity
  maxFileSizeKb : o.maxFileSizeKb? ≠ some .nothing

/-
  The lists of a configuration that options make longer hold
  nothing but what can be looked up.
-/
structure Config.CanExtend
    (c : Config)
    (o : ScanOptions) : Prop where
  exclude :
    o.exclude ≠ [] → ∀ s ∈ c.scan.exclude, s.isKey = true
  includeExtensions :
    o.includeExt ≠ [] →
      ∀ s ∈ c.scan.includeExtensions, s.isKey = true

/- A configuration that a setting gives, with options merged into it. -/
def Config.IsOf
    (s : Setting)
    (o : ScanOptions)
    (c : Config) : Prop :=
  ∃ read, Config.ofSetting s = .ok read ∧ read.merge o = .ok c

------------------------------------------------------------
-- Lists
------------------------------------------------------------

namespace Config

variable {c c' : Config}
variable {o : ScanOptions}

/- Texts can be added to what can be looked up. -/
theorem exists_addTexts
    {items : List Setting}
    {texts : List (Given String)}
    (hGiven : .nothing ∉ texts)
    (hKeys : texts ≠ [] → ∀ s ∈ items, s.isKey = true) :
    ∃ all, addTexts items texts = .ok all := by
  unfold addTexts
  cases texts with
  | nil => exact ⟨items, rfl⟩
  | cons text rest =>
      have hTexts :
          ∀ g ∈ text :: rest,
            (settingOf .text g).isKey = true := by
        rintro (value | _) hMem
        · rfl
        · exact absurd hMem hGiven
      have hAll :
          (items ++ (text :: rest).map (settingOf .text)).all
            Setting.isKey = true := by
        rw [List.all_append, Bool.and_eq_true, List.all_map,
          List.all_eq_true, List.all_eq_true]
        exact ⟨hKeys (List.cons_ne_nil _ _), hTexts⟩
      rw [if_neg (by simp)]
      unfold distinctKeys
      rw [if_pos hAll]
      exact ⟨_, rfl⟩

/- Names of rules can be added to others. -/
theorem exists_addRules
    {names : List (Given String)}
    (hGiven : .nothing ∉ names)
    (rules : List String) :
    ∃ all, addRules rules names = .ok all := by
  unfold addRules
  split
  · exact ⟨rules, rfl⟩
  · rw [exists_map_iff, exists_mapM_iff]
    rintro (name | _) hMem
    · exact ⟨_, rfl⟩
    · exact absurd hMem hGiven

/- Names of rules can be added to the only rules to run. -/
theorem exists_addEnabled
    {names : List (Given String)}
    (hGiven : .nothing ∉ names)
    (rules? : Option (List String)) :
    ∃ all, addEnabled rules? names = .ok all := by
  unfold addEnabled
  split
  · exact ⟨rules?, rfl⟩
  · rw [exists_map_iff]
    exact exists_addRules hGiven _

/- The lists of a configuration can be made longer. -/
theorem exists_mergeLists
    (hGiven : o.IsGiven)
    (hExtend : c.CanExtend o) :
    ∃ c', c.mergeLists o = .ok c' := by
  unfold mergeLists
  simp only [exists_bind_iff, pure_eq_ok_iff, exists_eq',
    and_true, exists_and_right]
  exact
    ⟨exists_addTexts hGiven.exclude hExtend.exclude,
      exists_addTexts hGiven.includeExt
        hExtend.includeExtensions,
      exists_addEnabled hGiven.enableRule _,
      exists_addRules hGiven.disableRule _⟩

/- Longer lists change nothing else. -/
theorem maxFileSizeKb_of_mergeLists
    (h : c.mergeLists o = .ok c') :
    c'.scan.maxFileSizeKb = c.scan.maxFileSizeKb := by
  simp only [mergeLists, bind_eq_ok_iff, pure_eq_ok_iff] at h
  rcases h with ⟨_, _, _, _, _, _, _, _, rfl⟩
  rfl

------------------------------------------------------------
-- Severities
------------------------------------------------------------

/- Severities are merged up to the first that is malformed. -/
theorem mergeSeverities_cases
    {texts : List (Given String)}
    (hGiven : .nothing ∉ texts) :
    (∃ c', c.mergeSeverities texts = .ok c') ∨
      ∃ text soFar,
        c.mergeSeverities texts =
          .error (.malformedSeverity text soFar) := by
  induction texts generalizing c with
  | nil => exact Or.inl ⟨c, rfl⟩
  | cons text rest ih =>
      rcases text with text | _
      · have hRest :
            .nothing ∉ rest :=
          fun hMem => hGiven (List.mem_cons_of_mem _ hMem)
        unfold mergeSeverities
        cases severityOption? text with
        | none => exact Or.inr ⟨text, c, rfl⟩
        | some pair => exact ih hRest
      · exact absurd List.mem_cons_self hGiven

/- Severities change nothing of the scan. -/
theorem scan_of_mergeSeverities
    {texts : List (Given String)}
    (h : c.mergeSeverities texts = .ok c') :
    c'.scan = c.scan := by
  induction texts generalizing c with
  | nil =>
      cases h
      rfl
  | cons text rest ih =>
      rcases text with text | _
      · unfold mergeSeverities at h
        cases hOption : severityOption? text with
        | none =>
            rw [hOption] at h
            cases h
        | some pair =>
            rw [hOption] at h
            have hRest := ih h
            exact hRest
      · cases h

------------------------------------------------------------
-- All Options
------------------------------------------------------------

/- Merging ends with a configuration or at a malformed severity. -/
theorem merge_cases
    (hGiven : o.IsGiven)
    (hExtend : c.CanExtend o) :
    (∃ c', c.merge o = .ok c') ∨
      ∃ text soFar,
        c.merge o = .error (.malformedSeverity text soFar) := by
  rcases exists_mergeLists hGiven hExtend with ⟨c', hLists⟩
  unfold merge
  rw [hLists]
  change
    (∃ merged, (c'.mergeSeverities o.severity >>= _) = .ok merged) ∨
      ∃ text soFar,
        (c'.mergeSeverities o.severity >>= _) =
          .error (.malformedSeverity text soFar)
  rcases mergeSeverities_cases hGiven.severity with
    ⟨merged, hMerged⟩ | ⟨text, soFar, hMerged⟩
  · rw [hMerged]
    exact Or.inl ⟨_, rfl⟩
  · rw [hMerged]
    exact Or.inr ⟨text, soFar, rfl⟩

/- The greatest size of a file stays an integer. -/
theorem exists_maxFileSizeKb_of_merge
    (hGiven : o.IsGiven)
    (hSize : ∃ n, c.scan.maxFileSizeKb = .integer n)
    (h : c.merge o = .ok c') :
    ∃ n, c'.scan.maxFileSizeKb = .integer n := by
  simp only [merge, bind_eq_ok_iff, mapError_eq_ok_iff,
    pure_eq_ok_iff] at h
  rcases h with ⟨longer, hLists, severe, hSevere, rfl⟩
  change
    ∃ n,
      integerOr o.maxFileSizeKb? severe.scan.maxFileSizeKb =
        .integer n
  rw [scan_of_mergeSeverities hSevere,
    maxFileSizeKb_of_mergeLists hLists]
  unfold integerOr
  rcases hOption : o.maxFileSizeKb? with _ | ⟨n | _⟩
  · exact hSize
  · exact ⟨n, rfl⟩
  · exact absurd hOption hGiven.maxFileSizeKb

end Config

end CommentLint
