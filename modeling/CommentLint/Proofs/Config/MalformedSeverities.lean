import CommentLint.Proofs.Config.LongerLists
import CommentLint.Proofs.Config.SeverityTexts

/-
  Merging that stops at a malformed severity.

  By then the lists are longer and the severities before the
  malformed one are given; everything else is as it was.  An
  option without a value may stop merging earlier, with an
  error of another kind.

  Key definitions include:
    * `Config.StopsAt`

  Key results include:
    * `Config.merge_eq_malformed_iff`
    * `Config.stopsAt_of_merge`
    * `Config.merge_stops_at_malformed`
    * `Config.merge_stops_at_valueless`
-/

namespace CommentLint

------------------------------------------------------------
-- Where Merging Stops
------------------------------------------------------------

/-
  What merging leaves of a configuration where it stops at a
  malformed severity: the lists are merged, the severities
  before it are given one after another, the last one counting
  for its rule, and every other field is as it was.
-/
structure Config.StopsAt
    (c : Config)
    (o : ScanOptions)
    (text : String)
    (soFar : Config) : Prop where
  exclude :
    ExtendsTexts c.scan.exclude o.exclude soFar.scan.exclude
  includeExtensions :
    ExtendsTexts c.scan.includeExtensions o.includeExt
      soFar.scan.includeExtensions
  enabledRules :
    if o.enableRule = [] then
      soFar.scan.enabledRules? = c.scan.enabledRules?
    else
      ∃ all,
        soFar.scan.enabledRules? = some all ∧
          ExtendsRules (c.scan.enabledRules?.getD [])
            o.enableRule all
  disabledRules :
    ExtendsRules c.scan.disabledRules o.disableRule
      soFar.scan.disabledRules
  severities :
    ∃ pairs,
      IsFirstMalformed o.severity pairs text ∧
        soFar.severities = putSeverities pairs c.severities ∧
          ∀ id,
            soFar.severities.lookup id =
              (pairs.reverse.lookup id).or
                (c.severities.lookup id)
  inlineIgnore : soFar.scan.inlineIgnore = c.scan.inlineIgnore
  maxFileSizeKb : soFar.scan.maxFileSizeKb = c.scan.maxFileSizeKb
  jobs : soFar.scan.jobs = c.scan.jobs
  gate : soFar.gate = c.gate
  report : soFar.report = c.report

namespace Config

variable {c soFar : Config}
variable {o : ScanOptions}
variable {text : String}

/- Settings that are made of texts are texts. -/
theorem holdsTexts_of_map
    (excludes extensions : List String)
    (hExclude : c.scan.exclude = excludes.map .text)
    (hExtensions :
      c.scan.includeExtensions = extensions.map .text) :
    c.HoldsTexts := by
  constructor
  · rw [hExclude]
    exact List.forall_mem_map.mpr fun t _ => ⟨t, rfl⟩
  · rw [hExtensions]
    exact List.forall_mem_map.mpr fun t _ => ⟨t, rfl⟩

/- Merging stops behind the lists, at a severity. -/
theorem merge_eq_malformed_iff :
    c.merge o = .error (.malformedSeverity text soFar) ↔
      ∃ longer,
        c.mergeLists o = .ok longer ∧
          longer.mergeSeverities o.severity =
            .error (.malformedSeverity text soFar) := by
  simp only [merge, bind_eq_error_iff, mapError_eq_error_iff,
    mapError_eq_ok_iff]
  constructor
  · rintro (⟨_, _, hCause⟩ | ⟨longer, hLists, hRest⟩)
    · cases hCause
    · rcases hRest with hSevere | ⟨_, _, hPure⟩
      · exact ⟨longer, hLists, hSevere⟩
      · cases hPure
  · rintro ⟨longer, hLists, hSevere⟩
    exact Or.inr ⟨longer, hLists, Or.inl hSevere⟩

/- What is left behind where merging stops. -/
theorem stopsAt_of_merge
    (hConfig : c.HoldsTexts)
    (h : c.merge o = .error (.malformedSeverity text soFar)) :
    c.StopsAt o text soFar := by
  rcases merge_eq_malformed_iff.mp h with
    ⟨longer, hLists, hSevere⟩
  simp only [mergeLists, bind_eq_ok_iff, pure_eq_ok_iff]
    at hLists
  rcases hLists with ⟨exclude, hExclude, extensions, hExtensions,
    enabled, hEnabled, disabled, hDisabled, rfl⟩
  rcases exists_of_mergeSeverities_eq_error hSevere with
    ⟨pairs, hFirst, rfl⟩
  exact
    { exclude := (addTexts_eq_ok_iff hConfig.exclude).mp hExclude
      includeExtensions :=
        (addTexts_eq_ok_iff hConfig.includeExtensions).mp
          hExtensions
      enabledRules := addEnabled_eq_ok_iff.mp hEnabled
      disabledRules := addRules_eq_ok_iff.mp hDisabled
      severities :=
        ⟨pairs, hFirst, rfl,
          fun id => lookup_putSeverities id pairs c.severities⟩
      inlineIgnore := rfl
      maxFileSizeKb := rfl
      jobs := rfl
      gate := rfl
      report := rfl }

/- Options that lack a value fail as settings of the wrong kind. -/
theorem cause_of_merge
    {cause : SettingError}
    (h : c.merge o = .error (.setting cause)) :
    cause = .notKey ∨ cause = .notText := by
  simp only [merge, bind_eq_error_iff, mapError_eq_error_iff,
    mapError_eq_ok_iff] at h
  rcases h with ⟨e, hLists, hCause⟩ |
    ⟨_, _, hSevere | ⟨_, _, hPure⟩⟩
  · cases hCause
    exact cause_of_mergeLists hLists
  · exact Or.inr (eq_notText_of_mergeSeverities hSevere)
  · cases hPure

/-
  Merging stops at a malformed severity exactly where the
  lists are given with values and some severity is malformed
  that no severity without a value stands before.  The message
  quotes the first malformed one, and what is left behind has
  the lists merged, the severities before it given and nothing
  else changed.  All other errors are those of options without
  a value.
-/
theorem merge_stops_at_malformed
    (hConfig : c.HoldsTexts) :
    ((∃ text soFar,
        c.merge o = .error (.malformedSeverity text soFar)) ↔
      o.ListsValues ∧
        ∃ before text after,
          o.severity = before ++ .value text :: after ∧
            .nothing ∉ before ∧ IsMalformedSeverity text) ∧
      (∀ text soFar,
        c.merge o = .error (.malformedSeverity text soFar) →
          (MergeError.malformedSeverity text soFar).message =
              "--severity expects RULE=LEVEL, got '" ++ text ++
                "'" ∧
            c.StopsAt o text soFar) ∧
      ∀ cause,
        c.merge o = .error (.setting cause) →
          cause = .notKey ∨ cause = .notText := by
  refine ⟨⟨?_, ?_⟩, ?_, fun _ => cause_of_merge⟩
  · rintro ⟨text, soFar, hStop⟩
    rcases merge_eq_malformed_iff.mp hStop with
      ⟨longer, hLists, _⟩
    -- Before the first malformed severity there are only values.
    rcases (stopsAt_of_merge hConfig hStop).severities with
      ⟨_, ⟨before, after, hGiven, _, _, hText⟩, _⟩
    exact
      ⟨(exists_mergeLists_iff hConfig).mp ⟨longer, hLists⟩,
        before.map .value, text, after, hGiven,
        exists_values_iff.mp ⟨before, rfl⟩, hText⟩
  · rintro ⟨hLists, before, text, after, hGiven, hValues, hText⟩
    -- Merging may stop at another malformed severity before it.
    rcases (exists_mergeLists_iff hConfig).mpr hLists with
      ⟨longer, hLonger⟩
    rcases exists_malformed_of_mergeSeverities (c := longer)
        hValues hText after with
      ⟨text', soFar, hStop⟩
    rw [← hGiven] at hStop
    exact
      ⟨text', soFar,
        merge_eq_malformed_iff.mpr ⟨longer, hLonger, hStop⟩⟩
  · intro text soFar hStop
    exact ⟨rfl, stopsAt_of_merge hConfig hStop⟩

/- A severity without a rule, behind two for one rule. -/
theorem merge_stops_at_missing_rule :
    let c : Config :=
      { scan := { exclude := [.text "gen", .text "gen"] }
        severities := [("comment_spacing", "note")] }
    let o : ScanOptions :=
      { exclude := [.value "out", .value "gen"]
        enableRule := [.value "Comment_Spacing"]
        severity :=
          [
            .value " Comment_Spacing = Error ",
            .value "comment_spacing=Warning",
            .value "a=b=c", .value " = x", .nothing
          ]
        noInlineIgnore := true
        format? := some (.value "json") }
    let soFar : Config :=
      { scan := {
          exclude := [.text "gen", .text "out"]
          enabledRules? := some ["comment_spacing"]
        }
        severities :=
          [("comment_spacing", "warning"), ("a", "b=c")] }
    c.HoldsTexts ∧
      c.merge o = .error (.malformedSeverity " = x" soFar) ∧
        o.ListsValues ∧ c.StopsAt o " = x" soFar := by
  intro c o soFar
  have hConfig : c.HoldsTexts :=
    holdsTexts_of_map ["gen", "gen"] defaultExtensions rfl rfl
  have hStop :
      c.merge o = .error (.malformedSeverity " = x" soFar) :=
    rfl
  rcases merge_stops_at_malformed hConfig with ⟨hIff, hState, _⟩
  exact
    ⟨hConfig, hStop, (hIff.mp ⟨_, _, hStop⟩).1,
      (hState _ _ hStop).2⟩

/-
  A malformed severity does not stop merging where an option
  that is given without a value does so before: a list that
  holds no text, or a severity that is none.
-/
theorem merge_stops_at_valueless :
    ∃ o p : ScanOptions,
      CommandLine.Invocation.parse
            ["scan", "--exclude=--", "--severity", "bad"] =
          .ok ⟨false, .scan o⟩ ∧
        CommandLine.Invocation.parse
            ["scan", "--severity=--", "--severity", "bad"] =
          .ok ⟨false, .scan p⟩ ∧
        ({} : Config).HoldsTexts ∧
        ({} : Config).merge o = .error (.setting .notKey) ∧
        ({} : Config).merge p = .error (.setting .notText) ∧
        ∀ q ∈ [o, p],
          ¬ ((∃ text soFar,
                ({} : Config).merge q =
                  .error (.malformedSeverity text soFar)) ↔
              ∃ text,
                .value text ∈ q.severity ∧
                  IsMalformedSeverity text) := by
  let o : ScanOptions :=
    { exclude := [.nothing], severity := [.value "bad"] }
  let p : ScanOptions :=
    { severity := [.nothing, .value "bad"] }
  have hText : IsMalformedSeverity "bad" := Or.inl (by decide)
  have hConfig : ({} : Config).HoldsTexts :=
    holdsTexts_of_map defaultExcludes defaultExtensions rfl rfl
  have hMerge :
      ({} : Config).merge o = .error (.setting .notKey) :=
    rfl
  have hMerge' :
      ({} : Config).merge p = .error (.setting .notText) :=
    rfl
  refine
    ⟨o, p, by decide +kernel, by decide +kernel, hConfig, hMerge,
      hMerge', ?_⟩
  simp only [List.forall_mem_cons, List.not_mem_nil,
    false_imp_iff, implies_true, and_true]
  constructor
  · intro hIff
    rcases hIff.mpr ⟨"bad", by decide, hText⟩ with ⟨_, _, hStop⟩
    rw [hMerge] at hStop
    cases hStop
  · intro hIff
    rcases hIff.mpr ⟨"bad", by decide, hText⟩ with ⟨_, _, hStop⟩
    rw [hMerge'] at hStop
    cases hStop

end Config

end CommentLint
