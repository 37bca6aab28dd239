import CommentLint.Proofs.Config.OptionSequences
import Mathlib.Data.Set.List

/-
  Lists of texts that options make longer.

  Lists of texts become longer where every option has its
  value, and then they are the old texts and the new ones, each
  at its first place.  They become longer in no other case: an
  option without a value is no text.

  Key definitions include:
    * `extended`
    * `ExtendsTexts`
    * `ExtendsRules`

  Key results include:
    * `Config.addTexts_eq_ok_iff`
    * `Config.addRules_eq_ok_iff`
    * `Config.addEnabled_eq_ok_iff`
    * `Config.exists_mergeLists_iff`
    * `Config.cause_of_mergeLists`
-/

namespace CommentLint

------------------------------------------------------------
-- What Lists Become
------------------------------------------------------------

/-
  Texts and others behind them, each at its first place.  Where
  there are no others the texts stay as they are.
-/
def extended (items more : List String) : List String :=
  if more.isEmpty then items else (items ++ more).eraseDups

/- Settings are texts, extended by the texts that are given. -/
def ExtendsTexts
    (items : List Setting)
    (given : List (Given String))
    (all : List Setting) : Prop :=
  ∃ old new : List String,
    items = old.map .text ∧ given = new.map .value ∧
      all = (extended old new).map .text

/- Rules are extended by the names that are given, in small letters. -/
def ExtendsRules
    (rules : List String)
    (given : List (Given String))
    (all : List String) : Prop :=
  ∃ names : List String,
    given = names.map .value ∧
      all = extended rules (names.map lowerString)

/- Options have their values where none of them lacks one. -/
theorem exists_values_iff
    {α : Type}
    {given : List (Given α)} :
    (∃ values : List α, given = values.map .value) ↔
      .nothing ∉ given := by
  constructor
  · rintro ⟨values, rfl⟩ hMem
    rcases List.mem_map.mp hMem with ⟨_, _, hValue⟩
    cases hValue
  · intro hNot
    have hAll : ∀ g ∈ given, g ∈ Set.range Given.value := by
      intro g hMem
      cases g with
      | value a => exact ⟨a, rfl⟩
      | nothing => exact absurd hMem hNot
    rcases (Set.range_list_map Given.value).ge hAll with
      ⟨values, hValues⟩
    exact ⟨values, hValues.symm⟩

namespace Config

variable {c : Config}
variable {o : ScanOptions}
variable {given : List (Given String)}
variable {items all : List Setting}
variable {rules allRules : List String}

/- Texts that are kept as settings are kept as texts. -/
theorem distinctKeys_map_text (texts : List String) :
    distinctKeys (texts.map .text) =
      .ok (texts.eraseDups.map .text) := by
  rw [distinctKeys_eq_ok_iff, ← distinct_eq_eraseDups]
  constructor
  · intro s hs
    rcases List.mem_map.mp hs with ⟨t, _, rfl⟩
    rfl
  · exact
      keepFirst_map (f := Setting.text) (fun _ _ => rfl) []
        texts

/- Texts are extended by texts. -/
theorem addTexts_map (old new : List String) :
    addTexts (old.map .text) (new.map .value) =
      .ok ((extended old new).map .text) := by
  cases new with
  | nil => rfl
  | cons t rest =>
      rw [addTexts_of_ne_nil (by simp), List.map_map]
      change distinctKeys (old.map .text ++ (t :: rest).map .text) = _
      rw [← List.map_append, distinctKeys_map_text]
      rfl

/- Nothing in the place of a text is not added. -/
theorem nothing_not_mem_of_addTexts
    (h : addTexts items given = .ok all) :
    .nothing ∉ given := by
  intro hMem
  rw [addTexts_of_ne_nil (List.ne_nil_of_mem hMem)] at h
  have hKey :=
    (distinctKeys_eq_ok_iff.mp h).1 _
      (List.mem_append_right _ (List.mem_map_of_mem hMem))
  cases hKey

/- Texts are added to texts where the options have values. -/
theorem addTexts_eq_ok_iff
    (hItems : ∀ s ∈ items, ∃ t, s = .text t) :
    addTexts items given = .ok all ↔
      ExtendsTexts items given all := by
  constructor
  · intro h
    have hAll : ∀ s ∈ items, s ∈ Set.range Setting.text :=
      fun s hs => (hItems s hs).imp fun _ hText => hText.symm
    rcases (Set.range_list_map Setting.text).ge hAll with
      ⟨old, rfl⟩
    rcases exists_values_iff.mpr (nothing_not_mem_of_addTexts h) with
      ⟨new, rfl⟩
    rw [addTexts_map] at h
    exact ⟨old, new, rfl, rfl, (Except.ok.inj h).symm⟩
  · rintro ⟨old, new, rfl, rfl, rfl⟩
    exact addTexts_map old new

/- Rules are extended by names. -/
theorem addRules_map (rules names : List String) :
    addRules rules (names.map .value) =
      .ok (extended rules (names.map lowerString)) := by
  cases names with
  | nil => rfl
  | cons name rest =>
      have hLower :
          ((name :: rest).map .value).mapM lowerGiven =
            .ok ((name :: rest).map lowerString) := by
        rw [mapM_eq_ok_iff, List.forall₂_map_left_iff,
          List.forall₂_map_right_iff, List.forall₂_same]
        exact fun _ _ => rfl
      rw [addRules_of_ne_nil (by simp), hLower]
      change Except.ok (distinct _) = _
      rw [distinct_eq_eraseDups]
      rfl

/- Nothing in the place of a name is not added. -/
theorem nothing_not_mem_of_addRules
    (h : addRules rules given = .ok allRules) :
    .nothing ∉ given := by
  intro hMem
  rw [addRules_of_ne_nil (List.ne_nil_of_mem hMem)] at h
  rcases map_eq_ok_iff.mp h with ⟨low, hLow, _⟩
  rcases exists_mapM_iff.mp ⟨low, hLow⟩ _ hMem with ⟨_, hName⟩
  cases hName

/- Names are added to rules where the options have values. -/
theorem addRules_eq_ok_iff :
    addRules rules given = .ok allRules ↔
      ExtendsRules rules given allRules := by
  constructor
  · intro h
    rcases exists_values_iff.mpr (nothing_not_mem_of_addRules h) with
      ⟨names, rfl⟩
    rw [addRules_map] at h
    exact ⟨names, rfl, (Except.ok.inj h).symm⟩
  · rintro ⟨names, rfl, rfl⟩
    exact addRules_map rules names

/- Names are added to the only rules to run as they are to others. -/
theorem addEnabled_eq_ok_iff
    {rules? allRules? : Option (List String)} :
    addEnabled rules? given = .ok allRules? ↔
      if given = [] then allRules? = rules?
      else
        ∃ all,
          allRules? = some all ∧
            ExtendsRules (rules?.getD []) given all := by
  split
  · rename_i hNone
    rw [hNone]
    change Except.ok rules? = .ok allRules? ↔ _
    rw [Except.ok.injEq, eq_comm]
  · rename_i hSome
    rw [addEnabled_of_ne_nil hSome, map_eq_ok_iff]
    simp only [addRules_eq_ok_iff]
    constructor
    · rintro ⟨all, hAll, rfl⟩
      exact ⟨all, rfl, hAll⟩
    · rintro ⟨all, rfl, hAll⟩
      exact ⟨all, hAll, rfl⟩

------------------------------------------------------------
-- Lists That Can Be Made Longer
------------------------------------------------------------

/- Texts can be added to texts where the options have values. -/
theorem exists_addTexts_iff
    (hItems : ∀ s ∈ items, ∃ t, s = .text t) :
    (∃ all, addTexts items given = .ok all) ↔
      .nothing ∉ given := by
  constructor
  · rintro ⟨all, hAll⟩
    exact nothing_not_mem_of_addTexts hAll
  · intro hValues
    apply exists_addTexts hValues
    intro _ s hs
    rcases hItems s hs with ⟨t, rfl⟩
    rfl

/- Names can be added to rules where the options have values. -/
theorem exists_addRules_iff :
    (∃ all, addRules rules given = .ok all) ↔
      .nothing ∉ given := by
  constructor
  · rintro ⟨all, hAll⟩
    exact nothing_not_mem_of_addRules hAll
  · exact fun hValues => exists_addRules hValues rules

/- The only rules to run can be named where the options have values. -/
theorem exists_addEnabled_iff
    {rules? : Option (List String)} :
    (∃ all?, addEnabled rules? given = .ok all?) ↔
      .nothing ∉ given := by
  by_cases hNone : given = []
  · rw [hNone]
    exact iff_of_true ⟨rules?, rfl⟩ List.not_mem_nil
  · rw [addEnabled_of_ne_nil hNone, exists_map_iff,
      exists_addRules_iff]

/- Lists of texts are made longer where the options have values. -/
theorem exists_mergeLists_iff
    (hConfig : c.HoldsTexts) :
    (∃ c', c.mergeLists o = .ok c') ↔ o.ListsValues := by
  unfold mergeLists
  simp only [exists_bind_iff, pure_eq_ok_iff, exists_eq',
    and_true, exists_and_right,
    exists_addTexts_iff hConfig.exclude,
    exists_addTexts_iff hConfig.includeExtensions,
    exists_addEnabled_iff, exists_addRules_iff]
  constructor
  · rintro ⟨hExclude, hInclude, hEnable, hDisable⟩
    exact ⟨hExclude, hInclude, hEnable, hDisable⟩
  · intro h
    exact ⟨h.exclude, h.includeExt, h.enableRule, h.disableRule⟩

------------------------------------------------------------
-- Lists That Cannot
------------------------------------------------------------

/- Texts are added, or there is one that cannot be looked up. -/
theorem eq_notKey_of_addTexts
    {e : SettingError}
    (h : addTexts items given = .error e) :
    e = .notKey := by
  unfold addTexts at h
  split at h
  · cases h
  · unfold distinctKeys at h
    split at h
    · cases h
    · cases h
      rfl

/- Names are added, or there is one that is no text. -/
theorem eq_notText_of_addRules
    {e : SettingError}
    (h : addRules rules given = .error e) :
    e = .notText := by
  unfold addRules at h
  split at h
  · cases h
  · rcases exists_error_of_mapM (map_eq_error_iff.mp h) with
      ⟨name | _, _, hName⟩
    · cases hName
    · cases hName
      rfl

/- Lists fail in no other ways than these two. -/
theorem cause_of_mergeLists
    {e : SettingError}
    (h : c.mergeLists o = .error e) :
    e = .notKey ∨ e = .notText := by
  simp only [mergeLists, bind_eq_error_iff] at h
  rcases h with hExclude | ⟨_, _, hExtensions | ⟨_, _,
    hEnabled | ⟨_, _, hDisabled | ⟨_, _, hPure⟩⟩⟩⟩
  · exact Or.inl (eq_notKey_of_addTexts hExclude)
  · exact Or.inl (eq_notKey_of_addTexts hExtensions)
  · unfold addEnabled at hEnabled
    split at hEnabled
    · cases hEnabled
    · exact
        Or.inr
          (eq_notText_of_addRules (map_eq_error_iff.mp hEnabled))
  · exact Or.inr (eq_notText_of_addRules hDisabled)
  · cases hPure

end Config

end CommentLint
