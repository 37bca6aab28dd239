import CommentLint.CommandLine.Invocation
import CommentLint.Proofs.Config.MergedFields

/-
  Options that are merged one set after another.

  The options of two command lines in a row are options again:
  the repeatable ones are put together and of the others the
  later ones count.  To merge the two sets one after the other
  is to merge them together, provided that a later text is not
  empty: an empty one is left out when it is merged, but takes
  the place of an earlier one on a command line.

  Key definitions include:
    * `ScanOptions.andThen`
    * `ScanOptions.NamesTexts`
    * `Config.KeepsUnnamed`

  Key results include:
    * `CommandLine.scanOptions_append`
    * `Config.Merges.andThen`
    * `Config.Merges.again`
    * `Config.merge_andThen`
    * `Config.merge_format_without_text`
-/

namespace CommentLint

------------------------------------------------------------
-- Options in a Row
------------------------------------------------------------

/-
  The options of two sets given in a row.  Lists are put
  together, and what has one value is taken from the second
  set where it is given there.
-/
def ScanOptions.andThen (o p : ScanOptions) : ScanOptions :=
  { path := p.path
    config? := p.config?.or o.config?
    exclude := o.exclude ++ p.exclude
    includeExt := o.includeExt ++ p.includeExt
    enableRule := o.enableRule ++ p.enableRule
    disableRule := o.disableRule ++ p.disableRule
    severity := o.severity ++ p.severity
    noInlineIgnore := o.noInlineIgnore || p.noInlineIgnore
    maxFileSizeKb? := p.maxFileSizeKb?.or o.maxFileSizeKb?
    jobs? := p.jobs?.or o.jobs?
    format? := p.format?.or o.format?
    out? := p.out?.or o.out?
    failOn? := p.failOn?.or o.failOn?
    maxViolations? := p.maxViolations?.or o.maxViolations?
    maxWarning? := p.maxWarning?.or o.maxWarning?
    maxError? := p.maxError?.or o.maxError? }

namespace CommandLine

/- One more option is one more of the second set. -/
theorem applyScanOption_andThen
    (o p : ScanOptions)
    (given : String × Value) :
    applyScanOption (o.andThen p) given =
      o.andThen (applyScanOption p given) := by
  unfold applyScanOption
  dsimp only
  split <;>
    simp [ScanOptions.andThen, List.append_assoc, Option.or_assoc]

/- No options behind others change nothing. -/
theorem andThen_empty (o : ScanOptions) :
    o.andThen { path := o.path } = o := by
  simp [ScanOptions.andThen]

/- The options that are read behind others are a set of their own. -/
theorem foldl_applyScanOption
    (o : ScanOptions)
    (given : List (String × Value)) :
    given.foldl applyScanOption o =
      o.andThen
        (given.foldl applyScanOption { path := o.path }) := by
  suffices hBehind :
      ∀ p : ScanOptions,
        given.foldl applyScanOption (o.andThen p) =
          o.andThen (given.foldl applyScanOption p) by
    rw [← hBehind, andThen_empty]
  induction given with
  | nil => exact fun _ => rfl
  | cons g rest ih =>
      intro p
      rw [List.foldl_cons, List.foldl_cons,
        applyScanOption_andThen, ih]

/- Options leave the path to scan. -/
theorem path_foldl_applyScanOption
    (o : ScanOptions)
    (given : List (String × Value)) :
    (given.foldl applyScanOption o).path = o.path := by
  induction given generalizing o with
  | nil => rfl
  | cons g rest ih =>
      rw [List.foldl_cons, ih]
      unfold applyScanOption
      split <;> rfl

/- The options of two command lines in a row. -/
theorem scanOptions_append
    (given given' : List (String × Value))
    (operand? : Option (List String))
    (extras : List String) :
    scanOptions ⟨given ++ given', operand?, extras⟩ =
      (scanOptions ⟨given, operand?, extras⟩).andThen
        (scanOptions ⟨given', operand?, extras⟩) := by
  unfold scanOptions
  dsimp only
  rw [List.foldl_append, foldl_applyScanOption,
    path_foldl_applyScanOption]

end CommandLine

------------------------------------------------------------
-- Options That Can Be Merged
------------------------------------------------------------

/- The lists that options make longer hold texts. -/
structure Config.HoldsTexts (c : Config) : Prop where
  exclude : ∀ s ∈ c.scan.exclude, ∃ t, s = .text t
  includeExtensions :
    ∀ s ∈ c.scan.includeExtensions, ∃ t, s = .text t

/- The options that make lists longer are given with values. -/
structure ScanOptions.ListsValues (o : ScanOptions) : Prop where
  exclude : .nothing ∉ o.exclude
  includeExt : .nothing ∉ o.includeExt
  enableRule : .nothing ∉ o.enableRule
  disableRule : .nothing ∉ o.disableRule

/- Two sets of options with values in a row have values. -/
theorem ScanOptions.ListsValues.andThen
    {o p : ScanOptions}
    (h : o.ListsValues)
    (h' : p.ListsValues) :
    (o.andThen p).ListsValues where
  exclude hMem :=
    (List.mem_append.mp hMem).elim h.exclude h'.exclude
  includeExt hMem :=
    (List.mem_append.mp hMem).elim h.includeExt h'.includeExt
  enableRule hMem :=
    (List.mem_append.mp hMem).elim h.enableRule h'.enableRule
  disableRule hMem :=
    (List.mem_append.mp hMem).elim h.disableRule h'.disableRule

/- No severity is malformed. -/
def ScanOptions.NamesSeverities (o : ScanOptions) : Prop :=
  ∀ g ∈ o.severity,
    ∃ pair, Config.severityGiven? g = some pair

/- The options that name a text are given with one, not empty. -/
structure ScanOptions.NamesTexts (o : ScanOptions) : Prop where
  failOn : ∀ g, o.failOn? = some g → ∃ t, g = .value t ∧ t ≠ ""
  format : ∀ g, o.format? = some g → ∃ t, g = .value t ∧ t ≠ ""
  out : ∀ g, o.out? = some g → ∃ t, g = .value t ∧ t ≠ ""

/- Fields for which no option is given stay as they are. -/
structure Config.KeepsUnnamed
    (c : Config)
    (o : ScanOptions)
    (c' : Config) : Prop where
  exclude : o.exclude = [] → c'.scan.exclude = c.scan.exclude
  includeExtensions :
    o.includeExt = [] →
      c'.scan.includeExtensions = c.scan.includeExtensions
  enabledRules :
    o.enableRule = [] →
      c'.scan.enabledRules? = c.scan.enabledRules?
  disabledRules :
    o.disableRule = [] →
      c'.scan.disabledRules = c.scan.disabledRules
  severities : o.severity = [] → c'.severities = c.severities
  inlineIgnore :
    o.noInlineIgnore = false →
      c'.scan.inlineIgnore = c.scan.inlineIgnore
  maxFileSizeKb :
    o.maxFileSizeKb? = none →
      c'.scan.maxFileSizeKb = c.scan.maxFileSizeKb
  jobs : o.jobs? = none → c'.scan.jobs = c.scan.jobs
  failOn : o.failOn? = none → c'.gate.failOn = c.gate.failOn
  maxViolations :
    o.maxViolations? = none →
      c'.gate.maxViolations = c.gate.maxViolations
  maxWarning :
    o.maxWarning? = none →
      c'.gate.maxWarning = c.gate.maxWarning
  maxError :
    o.maxError? = none → c'.gate.maxError = c.gate.maxError
  format :
    o.format? = none → c'.report.format = c.report.format
  out : o.out? = none → c'.report.out = c.report.out

namespace Config

variable {c c₁ c₂ : Config}
variable {o p : ScanOptions}

/- Options that are merged in a row are merged together. -/
theorem Merges.andThen
    (h : c.Merges o c₁)
    (h' : c₁.Merges p c₂)
    (hTexts : p.NamesTexts) :
    c.Merges (o.andThen p) c₂ := by
  rcases h.severities with ⟨pairs, hPairs, hSeverities⟩
  rcases h'.severities with ⟨pairs', hPairs', hSeverities'⟩
  refine
    { exclude := ?_
      includeExtensions := ?_
      enabledRules := ?_
      disabledRules := ?_
      severities := ⟨pairs ++ pairs', ?_, ?_⟩
      inlineIgnore := ?_
      maxFileSizeKb := ?_
      jobs := ?_
      failOn := ?_
      maxViolations := ?_
      maxWarning := ?_
      maxError := ?_
      format := ?_
      out := ?_ }
  · exact (addTexts_append _ _ _).trans (h.exclude ▸ h'.exclude)
  · exact
      (addTexts_append _ _ _).trans
        (h.includeExtensions ▸ h'.includeExtensions)
  · exact
      (addEnabled_append _ _ _).trans
        (h.enabledRules ▸ h'.enabledRules)
  · exact
      (addRules_append _ _ _).trans
        (h.disabledRules ▸ h'.disabledRules)
  · change (o.severity ++ p.severity).mapM severityGiven? = _
    rw [List.mapM_append, hPairs, hPairs']
    rfl
  · rw [hSeverities', hSeverities, putSeverities_append]
  · rw [h'.inlineIgnore, h.inlineIgnore, ← Bool.and_assoc,
      ← Bool.not_or, Bool.or_comm]
    rfl
  · rw [h'.maxFileSizeKb, h.maxFileSizeKb]
    exact (integerOr_or _ _ _).symm
  · rw [h'.jobs, h.jobs]
    exact (integerOr_or _ _ _).symm
  · rw [h'.failOn, h.failOn]
    exact (textOr_or hTexts.failOn _ _).symm
  · rw [h'.maxViolations, h.maxViolations]
    exact (integerOr_or _ _ _).symm
  · rw [h'.maxWarning, h.maxWarning]
    exact (integerOr_or _ _ _).symm
  · rw [h'.maxError, h.maxError]
    exact (integerOr_or _ _ _).symm
  · rw [h'.format, h.format]
    exact (textOr_or hTexts.format _ _).symm
  · rw [h'.out, h.out]
    exact (textOr_or hTexts.out _ _).symm

/- Options that are merged together can be merged in a row. -/
theorem Merges.exists_of_andThen
    (h : c.Merges (o.andThen p) c₂)
    (hTexts : p.NamesTexts) :
    ∃ c₁, c.Merges o c₁ ∧ c₁.Merges p c₂ := by
  have hExclude :=
    (addTexts_append _ _ _).symm.trans h.exclude
  have hExtensions :=
    (addTexts_append _ _ _).symm.trans h.includeExtensions
  have hEnabled :=
    (addEnabled_append _ _ _).symm.trans h.enabledRules
  have hDisabled :=
    (addRules_append _ _ _).symm.trans h.disabledRules
  rcases h.severities with ⟨all, hAll, _⟩
  change (o.severity ++ p.severity).mapM _ = some all at hAll
  rw [List.mapM_append] at hAll
  rcases Option.bind_eq_some_iff.mp hAll with
    ⟨pairs, hPairs, hRest⟩
  rcases Option.bind_eq_some_iff.mp hRest with
    ⟨pairs', hPairs', _⟩
  have hFirst : ∃ c₁, c.Merges o c₁ := by
    rw [exists_merges_iff]
    rcases bind_eq_ok_iff.mp hExclude with ⟨_, hExclude, _⟩
    rcases bind_eq_ok_iff.mp hExtensions with ⟨_, hExtensions, _⟩
    rcases bind_eq_ok_iff.mp hEnabled with ⟨_, hEnabled, _⟩
    rcases bind_eq_ok_iff.mp hDisabled with ⟨_, hDisabled, _⟩
    exact
      ⟨⟨_, hExclude⟩, ⟨_, hExtensions⟩, ⟨_, hEnabled⟩,
        ⟨_, hDisabled⟩, _, hPairs⟩
  rcases hFirst with ⟨c₁, h₁⟩
  rw [h₁.exclude] at hExclude
  rw [h₁.includeExtensions] at hExtensions
  rw [h₁.enabledRules] at hEnabled
  rw [h₁.disabledRules] at hDisabled
  rcases exists_merges_iff.mpr
      ⟨⟨_, hExclude⟩, ⟨_, hExtensions⟩, ⟨_, hEnabled⟩,
        ⟨_, hDisabled⟩, _, hPairs'⟩ with
    ⟨c₂', h₂⟩
  -- Merging gives one configuration, which is that of both in a row.
  have hSame : Except.ok c₂' = Except.ok c₂ :=
    (merge_eq_ok_iff.mpr (h₁.andThen h₂ hTexts)).symm.trans
      (merge_eq_ok_iff.mpr h)
  cases hSame
  exact ⟨c₁, h₁, h₂⟩

/- Options that were merged once are merged already. -/
theorem Merges.again
    (h : c.Merges o c₁) :
    c₁.Merges o c₁ := by
  rcases h.severities with ⟨pairs, hPairs, hSeverities⟩
  exact
    { exclude := addTexts_again h.exclude
      includeExtensions := addTexts_again h.includeExtensions
      enabledRules := addEnabled_again h.enabledRules
      disabledRules := addRules_again h.disabledRules
      severities :=
        ⟨pairs, hPairs, by
          rw [hSeverities, putSeverities_again]⟩
      inlineIgnore := by
        rw [h.inlineIgnore, ← Bool.and_assoc, Bool.and_self]
      maxFileSizeKb := by
        rw [h.maxFileSizeKb, integerOr_again]
      jobs := by rw [h.jobs, integerOr_again]
      failOn := by rw [h.failOn, textOr_again]
      maxViolations := by
        rw [h.maxViolations, integerOr_again]
      maxWarning := by rw [h.maxWarning, integerOr_again]
      maxError := by rw [h.maxError, integerOr_again]
      format := by rw [h.format, textOr_again]
      out := by rw [h.out, textOr_again] }

/- Merging leaves the fields for which no option is given. -/
theorem Merges.keepsUnnamed
    (h : c.Merges o c₁) :
    c.KeepsUnnamed o c₁ where
  exclude hNone := by
    have hList := h.exclude
    rw [hNone] at hList
    exact (Except.ok.inj hList).symm
  includeExtensions hNone := by
    have hList := h.includeExtensions
    rw [hNone] at hList
    exact (Except.ok.inj hList).symm
  enabledRules hNone := by
    have hList := h.enabledRules
    rw [hNone] at hList
    exact (Except.ok.inj hList).symm
  disabledRules hNone := by
    have hList := h.disabledRules
    rw [hNone] at hList
    exact (Except.ok.inj hList).symm
  severities hNone := by
    rcases h.severities with ⟨pairs, hPairs, hSeverities⟩
    rw [hNone] at hPairs
    cases hPairs
    exact hSeverities
  inlineIgnore hNone := by
    rw [h.inlineIgnore, hNone]
    rfl
  maxFileSizeKb hNone := by
    rw [h.maxFileSizeKb, hNone]
    rfl
  jobs hNone := by
    rw [h.jobs, hNone]
    rfl
  failOn hNone := by
    rw [h.failOn, hNone]
    rfl
  maxViolations hNone := by
    rw [h.maxViolations, hNone]
    rfl
  maxWarning hNone := by
    rw [h.maxWarning, hNone]
    rfl
  maxError hNone := by
    rw [h.maxError, hNone]
    rfl
  format hNone := by
    rw [h.format, hNone]
    rfl
  out hNone := by
    rw [h.out, hNone]
    rfl

/- Options with values can be merged into lists of texts. -/
theorem exists_merges
    (hConfig : c.HoldsTexts)
    (hLists : o.ListsValues)
    (hSeverities : o.NamesSeverities) :
    ∃ c', c.Merges o c' := by
  have hKey :
      ∀ {items : List Setting},
        (∀ s ∈ items, ∃ t, s = .text t) →
          ∀ s ∈ items, s.isKey = true := by
    intro items hItems s hs
    rcases hItems s hs with ⟨t, rfl⟩
    rfl
  rw [exists_merges_iff]
  exact
    ⟨exists_addTexts hLists.exclude fun _ =>
        hKey hConfig.exclude,
      exists_addTexts hLists.includeExt fun _ =>
        hKey hConfig.includeExtensions,
      exists_addEnabled hLists.enableRule _,
      exists_addRules hLists.disableRule _,
      exists_severitiesGiven hSeverities⟩

/-
  Options that are merged in a row give the configuration that
  they give together, or neither gives one.  They give one
  where the lists are given with values.  Merging options
  again changes nothing, and merging leaves the fields for
  which no option is given.
-/
theorem merge_andThen
    (hConfig : c.HoldsTexts)
    (hSeverities : o.NamesSeverities)
    (hSeverities' : p.NamesSeverities)
    (hTexts : p.NamesTexts) :
    (∀ c₂,
      (∃ c₁, c.merge o = .ok c₁ ∧ c₁.merge p = .ok c₂) ↔
        c.merge (o.andThen p) = .ok c₂) ∧
      (o.ListsValues → p.ListsValues →
        ∃ c₂, c.merge (o.andThen p) = .ok c₂) ∧
      ∀ c₁,
        c.merge o = .ok c₁ →
          c₁.merge o = .ok c₁ ∧ c.KeepsUnnamed o c₁ := by
  simp only [merge_eq_ok_iff]
  refine ⟨?_, ?_, ?_⟩
  · intro c₂
    constructor
    · rintro ⟨c₁, h, h'⟩
      exact h.andThen h' hTexts
    · intro h
      exact h.exists_of_andThen hTexts
  · intro hLists hLists'
    apply exists_merges hConfig (hLists.andThen hLists')
    intro g hg
    rcases List.mem_append.mp hg with hFirst | hSecond
    · exact hSeverities g hFirst
    · exact hSeverities' g hSecond
  · intro c₁ h
    exact ⟨h.again, h.keepsUnnamed⟩

/- Two sets of options for the configuration without settings. -/
theorem merge_andThen_formats :
    let o : ScanOptions :=
      { exclude := [.value "gen"]
        severity := [.value "comment_spacing=error"]
        format? := some (.value "json") }
    let p : ScanOptions :=
      { exclude := [.value "gen", .value "out"]
        severity := [.value "comment_spacing=warning"]
        jobs? := some .nothing
        format? := some (.value "sarif") }
    ({} : Config).HoldsTexts ∧
      o.NamesSeverities ∧ p.NamesSeverities ∧ p.NamesTexts ∧
      o.ListsValues ∧ p.ListsValues ∧
      ∃ c₁ c₂,
        ({} : Config).merge o = .ok c₁ ∧
          c₁.merge p = .ok c₂ ∧
          ({} : Config).merge (o.andThen p) = .ok c₂ ∧
          c₁.merge o = .ok c₁ ∧
          ({} : Config).KeepsUnnamed o c₁ := by
  intro o p
  have hConfig : ({} : Config).HoldsTexts :=
    ⟨fun s hs => by
        rcases List.mem_map.mp hs with ⟨t, _, rfl⟩
        exact ⟨t, rfl⟩,
      fun s hs => by
        rcases List.mem_map.mp hs with ⟨t, _, rfl⟩
        exact ⟨t, rfl⟩⟩
  have hSeverities : o.NamesSeverities := by
    intro g hg
    rw [List.mem_singleton.mp hg]
    exact ⟨("comment_spacing", "error"), by decide⟩
  have hSeverities' : p.NamesSeverities := by
    intro g hg
    rw [List.mem_singleton.mp hg]
    exact ⟨("comment_spacing", "warning"), by decide⟩
  have hTexts : p.NamesTexts := by
    refine ⟨?_, ?_, ?_⟩
    · intro g hOut
      cases hOut
    · intro g hFormat
      exact ⟨"sarif", (Option.some.inj hFormat).symm, by decide⟩
    · intro g hFailOn
      cases hFailOn
  have hLists : o.ListsValues := by
    constructor <;> decide
  have hLists' : p.ListsValues := by
    constructor <;> decide
  rcases merge_andThen hConfig hSeverities hSeverities' hTexts with
    ⟨hRow, hSome, hAgain⟩
  rcases hSome hLists hLists' with ⟨c₂, hBoth⟩
  rcases (hRow c₂).mpr hBoth with ⟨c₁, hFirst, hSecond⟩
  exact
    ⟨hConfig, hSeverities, hSeverities', hTexts, hLists, hLists',
      c₁, c₂, hFirst, hSecond, hBoth, hAgain c₁ hFirst⟩

/-
  A format that is given without a text takes the place of an
  earlier one on a command line, but not when it is merged
  behind it.
-/
theorem merge_format_without_text :
    ∃ (o p : ScanOptions) (c₁ c₂ c₃ : Config),
      CommandLine.Invocation.parse ["scan", "--format", "json"] =
          .ok ⟨false, .scan o⟩ ∧
        CommandLine.Invocation.parse ["scan", "--format=--"] =
          .ok ⟨false, .scan p⟩ ∧
        ({} : Config).HoldsTexts ∧
        o.NamesSeverities ∧ p.NamesSeverities ∧
        o.out? = none ∧ p.out? = none ∧
        ({} : Config).merge o = .ok c₁ ∧
        c₁.merge p = .ok c₂ ∧
        ({} : Config).merge (o.andThen p) = .ok c₃ ∧
        c₂ ≠ c₃ := by
  refine
    ⟨{ format? := some (.value "json") },
      { format? := some .nothing }, _, _, _, by decide,
      by decide, ?_, by simp [ScanOptions.NamesSeverities],
      by simp [ScanOptions.NamesSeverities], rfl, rfl, rfl, rfl,
      rfl, ?_⟩
  · constructor <;>
    · intro s hs
      rcases List.mem_map.mp hs with ⟨t, _, rfl⟩
      exact ⟨t, rfl⟩
  · intro hSame
    have hFormat := congrArg (fun c => c.report.format) hSame
    exact absurd (Setting.text.inj hFormat) (by decide)

end Config

end CommentLint
