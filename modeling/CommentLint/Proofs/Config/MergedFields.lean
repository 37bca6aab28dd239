import CommentLint.Proofs.Config.Merging
import CommentLint.Proofs.Setting.Distinct

/-
  What merging options makes of each field.

  Lists are made longer, each item kept once; severities are
  put one after another; of the values that are given the
  last counts.  What is given in parts is merged in parts, and
  what was merged once is merged already.

  Key definitions include:
    * `Config.putSeverities`
    * `Config.Merges`

  Key results include:
    * `Config.addTexts_append`
    * `Config.addTexts_again`
    * `Config.putSeverities_again`
    * `Config.merge_eq_ok_iff`
    * `Config.exists_merges_iff`
-/

namespace CommentLint

------------------------------------------------------------
-- Lists
------------------------------------------------------------

namespace Config

section Lists

variable {a : List (Given String)}
variable {items items' : List Setting}
variable {rules rules' : List String}
variable {rules? rules?' : Option (List String)}

/-
  What can be added in two parts, where something is in both,
  can be added in any two parts: nothing adds nothing.
-/
theorem add_append
    {σ : Type}
    {add : σ → List (Given String) → Except SettingError σ}
    (hNone : ∀ s, add s [] = .ok s)
    (hSome :
      ∀ s a b,
        a ≠ [] → b ≠ [] →
          add s (a ++ b) = (add s a).bind fun s => add s b)
    (s : σ)
    (a b : List (Given String)) :
    add s (a ++ b) = (add s a).bind fun s => add s b := by
  cases a with
  | nil =>
      rw [hNone]
      rfl
  | cons g a =>
      cases b with
      | nil =>
          rw [List.append_nil]
          cases add s (g :: a) with
          | error e => rfl
          | ok s' => exact (hNone s').symm
      | cons h b =>
          exact hSome s _ _ (List.cons_ne_nil _ _)
            (List.cons_ne_nil _ _)

/- Texts are added to settings, each kept once. -/
theorem addTexts_of_ne_nil
    (h : a ≠ [])
    (items : List Setting) :
    addTexts items a =
      distinctKeys (items ++ a.map (settingOf .text)) := by
  unfold addTexts
  rw [if_neg (by simpa using h)]

/- Texts can be added in parts. -/
theorem addTexts_append
    (items : List Setting)
    (a b : List (Given String)) :
    addTexts items (a ++ b) =
      (addTexts items a).bind fun items => addTexts items b := by
  apply add_append (fun _ => rfl)
  intro items a b hSome hSome'
  rw [addTexts_of_ne_nil (List.append_ne_nil_of_left_ne_nil hSome b),
    addTexts_of_ne_nil hSome, List.map_append,
    ← List.append_assoc, distinctKeys_append]
  congr 1
  funext kept
  exact (addTexts_of_ne_nil hSome' kept).symm

/- Texts that were added once are not added again. -/
theorem addTexts_again
    (h : addTexts items a = .ok items') :
    addTexts items' a = .ok items' := by
  by_cases hSome : a = []
  · subst hSome
    rfl
  · rw [addTexts_of_ne_nil hSome] at h ⊢
    apply distinctKeys_append_self h
    intro x hx hKey
    rcases List.mem_map.mp hx with ⟨t | _, _, rfl⟩
    · exact beq_self_eq_true t
    · cases hKey

/- Names are added to rules, each kept once. -/
theorem addRules_of_ne_nil
    (h : a ≠ [])
    (rules : List String) :
    addRules rules a =
      (a.mapM lowerGiven).map fun low =>
        distinct (rules ++ low) := by
  unfold addRules
  rw [if_neg (by simpa using h)]

/- Names of rules can be added in parts. -/
theorem addRules_append
    (rules : List String)
    (a b : List (Given String)) :
    addRules rules (a ++ b) =
      (addRules rules a).bind fun rules => addRules rules b := by
  apply add_append (fun _ => rfl)
  intro rules a b hSome hSome'
  rw [addRules_of_ne_nil (List.append_ne_nil_of_left_ne_nil hSome b),
    addRules_of_ne_nil hSome, List.mapM_append]
  cases a.mapM lowerGiven with
  | error e => rfl
  | ok low =>
      change _ = addRules (distinct (rules ++ low)) b
      rw [addRules_of_ne_nil hSome']
      cases b.mapM lowerGiven with
      | error e => rfl
      | ok low' =>
          change
            Except.ok (distinct (rules ++ (low ++ low'))) =
              Except.ok (distinct (distinct (rules ++ low) ++ low'))
          rw [← distinct_append, List.append_assoc]

/- Names of rules that were added once are not added again. -/
theorem addRules_again
    (h : addRules rules a = .ok rules') :
    addRules rules' a = .ok rules' := by
  by_cases hSome : a = []
  · subst hSome
    rfl
  · rw [addRules_of_ne_nil hSome] at h ⊢
    rcases map_eq_ok_iff.mp h with ⟨low, hLow, rfl⟩
    exact
      map_eq_ok_iff.mpr
        ⟨low, hLow, distinct_append_self rules low⟩

/- Names are added to the only rules to run. -/
theorem addEnabled_of_ne_nil
    (h : a ≠ [])
    (rules? : Option (List String)) :
    addEnabled rules? a =
      (addRules (rules?.getD []) a).map some := by
  unfold addEnabled
  rw [if_neg (by simpa using h)]

/- The only rules to run can be named in parts. -/
theorem addEnabled_append
    (rules? : Option (List String))
    (a b : List (Given String)) :
    addEnabled rules? (a ++ b) =
      (addEnabled rules? a).bind fun rules? =>
        addEnabled rules? b := by
  apply add_append (fun _ => rfl)
  intro rules? a b hSome hSome'
  rw [addEnabled_of_ne_nil
      (List.append_ne_nil_of_left_ne_nil hSome b),
    addEnabled_of_ne_nil hSome, addRules_append]
  cases addRules (rules?.getD []) a with
  | error e => rfl
  | ok rules =>
      change _ = addEnabled (some rules) b
      rw [addEnabled_of_ne_nil hSome']
      rfl

/- The only rules to run are not named again. -/
theorem addEnabled_again
    (h : addEnabled rules? a = .ok rules?') :
    addEnabled rules?' a = .ok rules?' := by
  by_cases hSome : a = []
  · subst hSome
    rfl
  · rw [addEnabled_of_ne_nil hSome] at h ⊢
    rcases map_eq_ok_iff.mp h with ⟨rules', hRules, rfl⟩
    exact map_eq_ok_iff.mpr ⟨rules', addRules_again hRules, rfl⟩

end Lists

------------------------------------------------------------
-- Severities
------------------------------------------------------------

/- The rule and the level that a severity option gives. -/
def severityGiven? :
    Given String → Option (String × String)
  | .value text => severityOption? text
  | .nothing => none

/- Give rules their severities, one after another. -/
def putSeverities
    (pairs severities : List (String × String)) :
    List (String × String) :=
  pairs.foldl (fun found p => putSeverity p.1 p.2 found)
    severities

section Severities

variable {c c' : Config}
variable {id id' level level' : String}
variable {severities pairs : List (String × String)}

/- Severities are merged when none of them is malformed. -/
theorem mergeSeverities_eq_ok_iff
    {texts : List (Given String)} :
    c.mergeSeverities texts = .ok c' ↔
      ∃ pairs,
        texts.mapM severityGiven? = some pairs ∧
          { c with
            severities := putSeverities pairs c.severities } =
              c' := by
  induction texts generalizing c with
  | nil => simp [mergeSeverities, putSeverities]
  | cons text rest ih =>
      rcases text with text | _
      · rw [mergeSeverities, List.mapM_cons]
        change
          _ ↔
            ∃ pairs,
              ((severityOption? text).bind _) = some pairs ∧ _
        cases severityOption? text with
        | none => simp
        | some pair =>
            simp only [ih, Option.bind_some]
            constructor
            · rintro ⟨pairs, hPairs, rfl⟩
              exact ⟨pair :: pairs, by simp [hPairs], rfl⟩
            · rintro ⟨all, hAll, rfl⟩
              rcases Option.bind_eq_some_iff.mp hAll with
                ⟨pairs, hPairs, hEq⟩
              cases hEq
              exact ⟨pairs, hPairs, rfl⟩
      · simp [mergeSeverities, severityGiven?]

/- Severities are given where none of them is malformed. -/
theorem exists_severitiesGiven
    {texts : List (Given String)}
    (h : ∀ g ∈ texts, ∃ pair, severityGiven? g = some pair) :
    ∃ pairs, texts.mapM severityGiven? = some pairs := by
  induction texts with
  | nil => exact ⟨[], rfl⟩
  | cons g rest ih =>
      rw [List.forall_mem_cons] at h
      rcases h with ⟨⟨pair, hPair⟩, hRest⟩
      rcases ih hRest with ⟨pairs, hPairs⟩
      exact
        ⟨pair :: pairs, by
          rw [List.mapM_cons, hPair, hPairs]
          rfl⟩

/- A rule keeps its latest severity. -/
theorem putSeverity_self
    (id level level' : String)
    (severities : List (String × String)) :
    putSeverity id level (putSeverity id level' severities) =
      putSeverity id level severities := by
  induction severities with
  | nil => simp [putSeverity]
  | cons p rest ih =>
      by_cases hId : p.1 = id
      · simp [putSeverity, hId]
      · simp [putSeverity, hId, ih]

/- Rules that have a severity keep it. -/
theorem mem_ids_putSeverity :
    id ∈ (putSeverity id' level severities).map Prod.fst ↔
      id = id' ∨ id ∈ severities.map Prod.fst := by
  induction severities with
  | nil => simp [putSeverity]
  | cons p rest ih =>
      by_cases hId : p.1 = id'
      · simp [putSeverity, hId]
      · simp only [putSeverity, if_neg hId, List.map_cons,
          List.mem_cons, ih]
        exact or_left_comm

theorem mem_ids_putSeverities
    (hIn : id ∈ severities.map Prod.fst)
    (pairs : List (String × String)) :
    id ∈ (putSeverities pairs severities).map Prod.fst := by
  induction pairs generalizing severities with
  | nil => exact hIn
  | cons p rest ih =>
      exact ih (mem_ids_putSeverity.mpr (Or.inr hIn))

/- A rule that has a severity may get one before another rule. -/
theorem putSeverity_comm
    (hNe : id ≠ id')
    (hIn : id ∈ severities.map Prod.fst) :
    putSeverity id level (putSeverity id' level' severities) =
      putSeverity id' level' (putSeverity id level severities) := by
  induction severities with
  | nil => cases hIn
  | cons p rest ih =>
      rw [List.map_cons, List.mem_cons] at hIn
      by_cases hId : p.1 = id
      · have hId' : p.1 ≠ id' := fun h => hNe (hId.symm.trans h)
        simp [putSeverity, hId, hNe]
      · have hRest := hIn.resolve_left (Ne.symm hId)
        by_cases hId' : p.1 = id'
        · simp [putSeverity, hId', Ne.symm hNe]
        · simp [putSeverity, hId, hId', ih hRest]

/- A severity is put first where the rule gets no other one. -/
theorem putSeverities_putSeverity_comm
    (hNot : id ∉ pairs.map Prod.fst)
    (hIn : id ∈ severities.map Prod.fst) :
    putSeverity id level (putSeverities pairs severities) =
      putSeverities pairs (putSeverity id level severities) := by
  induction pairs generalizing severities with
  | nil => rfl
  | cons p rest ih =>
      rw [List.map_cons, List.mem_cons, not_or] at hNot
      have hStill :
          id ∈ (putSeverity p.1 p.2 severities).map Prod.fst :=
        mem_ids_putSeverity.mpr (Or.inr hIn)
      change
        putSeverity id level
            (putSeverities rest (putSeverity p.1 p.2 severities)) =
          putSeverities rest
            (putSeverity p.1 p.2 (putSeverity id level severities))
      rw [ih hNot.2 hStill, putSeverity_comm hNot.1 hIn]

/- A severity counts for nothing where the rule gets another one. -/
theorem putSeverities_putSeverity
    (hLater : id ∈ pairs.map Prod.fst)
    (hIn : id ∈ severities.map Prod.fst) :
    putSeverities pairs (putSeverity id level severities) =
      putSeverities pairs severities := by
  induction pairs generalizing severities with
  | nil => cases hLater
  | cons p rest ih =>
      change
        putSeverities rest
            (putSeverity p.1 p.2 (putSeverity id level severities)) =
          putSeverities rest (putSeverity p.1 p.2 severities)
      by_cases hId : id = p.1
      · rw [hId, putSeverity_self]
      · rw [List.map_cons, List.mem_cons] at hLater
        rw [← putSeverity_comm hId hIn,
          ih (hLater.resolve_left hId)
            (mem_ids_putSeverity.mpr (Or.inr hIn))]

/- To put severities in parts is to put them one after another. -/
theorem putSeverities_append
    (pairs more severities : List (String × String)) :
    putSeverities (pairs ++ more) severities =
      putSeverities more (putSeverities pairs severities) :=
  List.foldl_append

/- Severities that were put once are put already. -/
theorem putSeverities_again
    (pairs severities : List (String × String)) :
    putSeverities pairs (putSeverities pairs severities) =
      putSeverities pairs severities := by
  induction pairs generalizing severities with
  | nil => rfl
  | cons p rest ih =>
      have hIn :
          p.1 ∈ (putSeverity p.1 p.2 severities).map Prod.fst :=
        mem_ids_putSeverity.mpr (Or.inl rfl)
      have hStays := mem_ids_putSeverities hIn rest
      change
        putSeverities rest
            (putSeverity p.1 p.2
              (putSeverities rest
                (putSeverity p.1 p.2 severities))) =
          putSeverities rest (putSeverity p.1 p.2 severities)
      by_cases hLater : p.1 ∈ rest.map Prod.fst
      · rw [putSeverities_putSeverity hLater hStays, ih]
      · rw [putSeverities_putSeverity_comm hLater hIn,
          putSeverity_self, ih]

end Severities

------------------------------------------------------------
-- Single Values
------------------------------------------------------------

/- The later of two numbers counts. -/
theorem integerOr_or
    (given? later? : Option (Given Int))
    (s : Setting) :
    integerOr (later?.or given?) s =
      integerOr later? (integerOr given? s) := by
  cases later? <;> rfl

/- An option leaves every setting as it is, or each gets its text. -/
theorem textOr_cases (given? : Option (Given String)) :
    (∀ s, textOr given? s = s) ∨
      ∃ t, ∀ s, textOr given? s = .text t := by
  rcases given? with _ | ⟨t | _⟩
  · exact Or.inl fun _ => rfl
  · by_cases hEmpty : t.isEmpty = true
    · exact Or.inl fun s => by simp [textOr, hEmpty]
    · exact Or.inr ⟨t, fun s => by simp [textOr, hEmpty]⟩
  · exact Or.inl fun _ => rfl

/- Of two texts the later counts, unless it is empty. -/
theorem textOr_or
    {later? : Option (Given String)}
    (hText :
      ∀ g, later? = some g → ∃ t, g = .value t ∧ t ≠ "")
    (given? : Option (Given String))
    (s : Setting) :
    textOr (later?.or given?) s =
      textOr later? (textOr given? s) := by
  cases later? with
  | none => rfl
  | some g =>
      rcases hText g rfl with ⟨t, rfl, hSome⟩
      have hFull : ¬ t.isEmpty = true := by
        rwa [String.isEmpty_iff]
      change
        (if t.isEmpty = true then s else .text t) =
          if t.isEmpty = true then textOr given? s else .text t
      rw [if_neg hFull, if_neg hFull]

/- A text that counts does so again. -/
theorem textOr_again
    (given? : Option (Given String))
    (s : Setting) :
    textOr given? (textOr given? s) = textOr given? s := by
  rcases textOr_cases given? with hSame | ⟨t, hText⟩
  · rw [hSame]
  · rw [hText, hText]

/- A number that counts does so again. -/
theorem integerOr_again
    (given? : Option (Given Int))
    (s : Setting) :
    integerOr given? (integerOr given? s) =
      integerOr given? s := by
  cases given? <;> rfl

end Config

------------------------------------------------------------
-- What Merging Makes of Each Field
------------------------------------------------------------

/- A configuration is another one with options merged into it. -/
structure Config.Merges
    (c : Config)
    (o : ScanOptions)
    (c' : Config) : Prop where
  exclude :
    addTexts c.scan.exclude o.exclude = .ok c'.scan.exclude
  includeExtensions :
    addTexts c.scan.includeExtensions o.includeExt =
      .ok c'.scan.includeExtensions
  enabledRules :
    addEnabled c.scan.enabledRules? o.enableRule =
      .ok c'.scan.enabledRules?
  disabledRules :
    addRules c.scan.disabledRules o.disableRule =
      .ok c'.scan.disabledRules
  severities :
    ∃ pairs,
      o.severity.mapM severityGiven? = some pairs ∧
        c'.severities = putSeverities pairs c.severities
  inlineIgnore :
    c'.scan.inlineIgnore =
      (!o.noInlineIgnore && c.scan.inlineIgnore)
  maxFileSizeKb :
    c'.scan.maxFileSizeKb =
      integerOr o.maxFileSizeKb? c.scan.maxFileSizeKb
  jobs : c'.scan.jobs = integerOr o.jobs? c.scan.jobs
  failOn : c'.gate.failOn = textOr o.failOn? c.gate.failOn
  maxViolations :
    c'.gate.maxViolations =
      integerOr o.maxViolations? c.gate.maxViolations
  maxWarning :
    c'.gate.maxWarning =
      integerOr o.maxWarning? c.gate.maxWarning
  maxError :
    c'.gate.maxError = integerOr o.maxError? c.gate.maxError
  format : c'.report.format = textOr o.format? c.report.format
  out : c'.report.out = textOr o.out? c.report.out

namespace Config

variable {c c' : Config}
variable {o : ScanOptions}

/- Merging succeeds with the configuration whose fields are merged. -/
theorem merge_eq_ok_iff :
    c.merge o = .ok c' ↔ c.Merges o c' := by
  simp only [merge, mergeLists, bind_eq_ok_iff,
    mapError_eq_ok_iff, pure_eq_ok_iff,
    mergeSeverities_eq_ok_iff]
  constructor
  · rintro ⟨_, ⟨exclude, hExclude, extensions, hExtensions,
      enabled, hEnabled, disabled, hDisabled, rfl⟩, _,
      ⟨pairs, hPairs, rfl⟩, rfl⟩
    exact
      { exclude := hExclude
        includeExtensions := hExtensions
        enabledRules := hEnabled
        disabledRules := hDisabled
        severities := ⟨pairs, hPairs, rfl⟩
        inlineIgnore := rfl
        maxFileSizeKb := rfl
        jobs := rfl
        failOn := rfl
        maxViolations := rfl
        maxWarning := rfl
        maxError := rfl
        format := rfl
        out := rfl }
  · intro h
    rcases h.severities with ⟨pairs, hPairs, hSeverities⟩
    refine
      ⟨_, ⟨_, h.exclude, _, h.includeExtensions, _,
        h.enabledRules, _, h.disabledRules, rfl⟩, _,
        ⟨pairs, hPairs, rfl⟩, ?_⟩
    unfold mergeValues
    dsimp only
    rw [← h.inlineIgnore, ← h.maxFileSizeKb, ← h.jobs,
      ← h.failOn, ← h.maxViolations, ← h.maxWarning,
      ← h.maxError, ← h.format, ← h.out, ← hSeverities]

/- Merging succeeds when lists and severities can be merged. -/
theorem exists_merges_iff :
    (∃ c', c.Merges o c') ↔
      (∃ items, addTexts c.scan.exclude o.exclude = .ok items) ∧
        (∃ items,
          addTexts c.scan.includeExtensions o.includeExt =
            .ok items) ∧
        (∃ rules?,
          addEnabled c.scan.enabledRules? o.enableRule =
            .ok rules?) ∧
        (∃ rules,
          addRules c.scan.disabledRules o.disableRule =
            .ok rules) ∧
        ∃ pairs, o.severity.mapM severityGiven? = some pairs := by
  constructor
  · rintro ⟨c', h⟩
    rcases h.severities with ⟨pairs, hPairs, _⟩
    exact
      ⟨⟨_, h.exclude⟩, ⟨_, h.includeExtensions⟩,
        ⟨_, h.enabledRules⟩, ⟨_, h.disabledRules⟩, pairs, hPairs⟩
  · rintro ⟨⟨exclude, hExclude⟩, ⟨extensions, hExtensions⟩,
      ⟨enabled, hEnabled⟩, ⟨disabled, hDisabled⟩, pairs, hPairs⟩
    let longer : Config :=
      { c with
        scan := {
          c.scan with
          exclude := exclude
          includeExtensions := extensions
          enabledRules? := enabled
          disabledRules := disabled
        }
        severities := putSeverities pairs c.severities }
    exact
      ⟨longer.mergeValues o,
        { exclude := hExclude
          includeExtensions := hExtensions
          enabledRules := hEnabled
          disabledRules := hDisabled
          severities := ⟨pairs, hPairs, rfl⟩
          inlineIgnore := rfl
          maxFileSizeKb := rfl
          jobs := rfl
          failOn := rfl
          maxViolations := rfl
          maxWarning := rfl
          maxError := rfl
          format := rfl
          out := rfl }⟩

end Config

end CommentLint
