import CommentLint.Proofs.Config.Acceptance
import Mathlib.Data.List.Perm.Subperm

/-
  What the gate depends on, and which way.

  The gate looks at a result through the ranks of its
  severities and through three counts.  None of them depends on
  the order of the violations, and what passes still passes
  when violations are left out or settings are eased.

  Key definitions include:
    * `Gate.Tolerates`
    * `Gate.Allows`
    * `GateConfig.IsUsual`
    * `GateConfig.EasesTo`
    * `Gate.verdict`

  Key results include:
    * `Gate.reaches_eq_any`
    * `Gate.reasons_eq_of_perm`
    * `Gate.reasons_eq_nil_iff`
    * `Gate.order_blind_and_monotone`
-/

namespace CommentLint

namespace Gate

------------------------------------------------------------
-- The Severity That Fails
------------------------------------------------------------

section Severities

variable {s : Severity}
variable {vs vs' : List Violation}
variable {failOn : Setting}
variable {label : String}

/- The rank of a severity, zero where it has none. -/
def rankOrZero (s : Severity) : Nat :=
  s.rank?.getD 0

/- Where there is a rank, it is found. -/
theorem rank_eq_rankOrZero
    (h : s.IsRanked) :
    rank s = .ok (rankOrZero s) := by
  rcases h with rfl | rfl
  · rfl
  · rfl

/-
  Among violations with ranks, the search for one that reaches
  a rank asks each of them alike.
-/
theorem reaches_eq_any
    (h : ∀ v ∈ vs, v.severity.IsRanked)
    (limit : Nat) :
    reaches limit vs =
      .ok (vs.any fun v => limit ≤ rankOrZero v.severity) := by
  induction vs with
  | nil => rfl
  | cons v rest ih =>
      have hRest :=
        ih fun w hMem => h w (List.mem_cons_of_mem v hMem)
      -- With ranks, no violation ends the search in an error.
      unfold reaches
      rw [rank_eq_rankOrZero (h v List.mem_cons_self), hRest,
        List.any_cons]
      by_cases hReach : limit ≤ rankOrZero v.severity
      · simp [hReach]
      · simp [hReach]

/- The reason of a severity does not depend on the order. -/
theorem severityReasons_eq_of_perm
    (hRanked : ∀ v ∈ vs, v.severity.IsRanked)
    (hPerm : vs'.Perm vs) :
    severityReasons vs' failOn = severityReasons vs failOn := by
  have hReaches :
      ∀ limit, reaches limit vs' = reaches limit vs := by
    intro limit
    rw [reaches_eq_any hRanked,
      reaches_eq_any fun v hMem => hRanked v (hPerm.subset hMem),
      hPerm.any_eq]
  simp only [severityReasons, hReaches]

/- The reason that a label with a rank gives. -/
theorem severityReasons_text
    (hRanked : ∀ v ∈ vs, v.severity.IsRanked)
    (hLabel : label ∈ Severity.labels) :
    severityReasons vs (.text label) =
      .ok
        (if vs.any fun v =>
            rankOrZero (Severity.ofLabel label) ≤
              rankOrZero v.severity then
          [.severity label]
        else []) := by
  have hThreshold :
      threshold (.text label) =
        .ok (rankOrZero (Severity.ofLabel label)) :=
    rank_eq_rankOrZero (Severity.isRanked_ofLabel hLabel)
  unfold severityReasons
  rw [if_neg (by simp [Setting.isNull]), hThreshold]
  change (reaches _ vs >>= _) = _
  rw [reaches_eq_any hRanked]
  cases vs.any fun v =>
      rankOrZero (Severity.ofLabel label) ≤
        rankOrZero v.severity with
  | true => rfl
  | false => rfl

/- A setting that fails on no severity, or on greater ones only. -/
def Tolerates
    (failOn : Setting)
    (s : Severity) : Prop :=
  failOn = .null ∨
    ∃ label, failOn = .text label ∧
      rankOrZero s < rankOrZero (Severity.ofLabel label)

/- A setting of no severity tolerates all. -/
theorem tolerates_null : Tolerates .null s :=
  Or.inl rfl

/- A label with a rank, or none at all. -/
def IsThreshold (failOn : Setting) : Prop :=
  failOn = .null ∨
    ∃ label ∈ Severity.labels, failOn = .text label

/- No reason is given when every severity is tolerated. -/
theorem severityReasons_eq_nil_iff
    (hRanked : ∀ v ∈ vs, v.severity.IsRanked)
    (hFailOn : IsThreshold failOn) :
    severityReasons vs failOn = .ok [] ↔
      ∀ v ∈ vs, Tolerates failOn v.severity := by
  rcases hFailOn with rfl | ⟨label, hLabel, rfl⟩
  · exact iff_of_true rfl fun _ _ => tolerates_null
  · rw [severityReasons_text hRanked hLabel]
    simp [Tolerates]

/- No severity with a rank is below a warning. -/
theorem not_tolerates_warning
    (h : s.IsRanked) :
    ¬ Tolerates (.text "warning") s := by
  rintro (⟨⟨⟩⟩ | ⟨_, ⟨rfl⟩, hLess⟩)
  rcases h with rfl | rfl
  · exact absurd hLess (by decide)
  · exact absurd hLess (by decide)

/- A severity with a rank is below an error unless it is one. -/
theorem tolerates_error_iff
    (h : s.IsRanked) :
    Tolerates (.text "error") s ↔ s ≠ .error := by
  constructor
  · rintro (⟨⟨⟩⟩ | ⟨_, ⟨rfl⟩, hLess⟩) rfl
    exact absurd hLess (by decide)
  · intro hOther
    rcases h with rfl | rfl
    · exact Or.inr ⟨"error", rfl, by decide⟩
    · exact absurd rfl hOther

end Severities

------------------------------------------------------------
-- Limits
------------------------------------------------------------

section Limits

variable {count few : Nat}
variable {reason : String → GateReason}
variable {limit limit' : Setting}

/- A limit that a count does not exceed. -/
def Allows
    (limit : Setting)
    (count : Nat) : Prop :=
  limit = .null ∨ limit.IsAtLeast count

/- No reason is given when the count is allowed. -/
theorem limitReasons_eq_nil_iff :
    limitReasons count reason limit = .ok [] ↔
      Allows limit count := by
  unfold limitReasons Allows Setting.IsAtLeast
  rw [← Setting.isNull_iff]
  cases limit.isNull with
  | true => simp
  | false =>
      cases limit.compareInt? count with
      | error e => simp [bind, Except.bind, Except.mapError]
      | ok order =>
          by_cases hExceeds : order = some .lt
          · cases limit.toText <;>
              simp [bind, Except.bind, Except.mapError, pure,
                Except.pure, hExceeds]
          · simp [bind, Except.bind, Except.mapError, pure,
              Except.pure, hExceeds]

/- No limit, or an integer as the limit. -/
def IsIntegerLimit (limit : Setting) : Prop :=
  limit = .null ∨ ∃ m, limit = .integer m

/-
  A limit that can be reported where it is exceeded.  Integers
  of more digits than the interpreter writes cannot.
-/
def IsReportable
    (limit : Setting)
    (count : Nat) : Prop :=
  ∀ m, limit = .integer m → m < count →
    m.natAbs < Nat.pow 10 Numeral.digitLimit

/- The reason of an integer that is exceeded holds its text. -/
theorem limitReasons_integer_of_lt
    {m : Int}
    (h : m < count) :
    limitReasons count reason (.integer m) =
      ((Setting.integer m).toText.mapError .setting).map
        fun text => [reason text] := by
  have hOrder :
      (Setting.integer m).compareInt? count =
        .ok (some .lt) := by
    simp [Setting.compareInt?, Int.compare_eq_lt, h]
  unfold limitReasons
  rw [hOrder]
  cases (Setting.integer m).toText with
  | error e => rfl
  | ok text => rfl

/- A count is compared with a limit that can be reported. -/
theorem exists_limitReasons_iff
    (hLimit : IsIntegerLimit limit) :
    (∃ found, limitReasons count reason limit = .ok found) ↔
      IsReportable limit count := by
  rcases hLimit with rfl | ⟨m, rfl⟩
  · exact iff_of_true ⟨[], rfl⟩ fun _ hNull => nomatch hNull
  · by_cases hExceeds : m < count
    · rw [limitReasons_integer_of_lt hExceeds, exists_map_iff]
      simp only [mapError_eq_ok_iff, Setting.exists_toText_iff,
        Setting.isWritable_integer_iff, IsReportable,
        Setting.integer.injEq, forall_eq', hExceeds,
        true_imp_iff]
    · have hAllows : Allows (.integer m) count :=
        Or.inr (Setting.isAtLeast_integer_iff.mpr (by omega))
      refine
        iff_of_true ⟨[], limitReasons_eq_nil_iff.mpr hAllows⟩ ?_
      rintro _ ⟨rfl⟩ hLess
      exact absurd hLess hExceeds

/- An integer is no limit only where its text is too long. -/
theorem eq_tooLargeToWrite_of_limitReasons
    {e : GateError}
    (hLimit : IsIntegerLimit limit)
    (h : limitReasons count reason limit = .error e) :
    e = .setting (.numeral .tooLargeToWrite) := by
  rcases hLimit with rfl | ⟨m, rfl⟩
  · cases h
  · by_cases hExceeds : m < count
    · rw [limitReasons_integer_of_lt hExceeds,
        map_eq_error_iff, mapError_eq_error_iff] at h
      rcases h with ⟨cause, hText, rfl⟩
      change
        (Numeral.write m).mapError SettingError.numeral =
          .error cause at hText
      rcases mapError_eq_error_iff.mp hText with
        ⟨_, hWrite, rfl⟩
      rw [(Numeral.write_eq_error_iff.mp hWrite).2]
    · have hAllows : Allows (.integer m) count :=
        Or.inr (Setting.isAtLeast_integer_iff.mpr (by omega))
      rw [limitReasons_eq_nil_iff.mpr hAllows] at h
      cases h

end Limits

end Gate

------------------------------------------------------------
-- Eased Settings
------------------------------------------------------------

/- A limit that is kept, raised or removed. -/
inductive Setting.EasesLimit : Setting → Setting → Prop where
| kept {limit : Setting} : EasesLimit limit limit
| raised {m n : Int} (h : m ≤ n) :
    EasesLimit (.integer m) (.integer n)
| removed {limit : Setting} : EasesLimit limit .null

/- A severity that fails and is kept, raised or removed. -/
inductive Setting.EasesThreshold : Setting → Setting → Prop where
| kept {failOn : Setting} : EasesThreshold failOn failOn
| raised : EasesThreshold (.text "warning") (.text "error")
| removed {failOn : Setting} : EasesThreshold failOn .null

namespace GateConfig

/- A gate whose settings are missing or of the usual kinds. -/
structure IsUsual (g : GateConfig) : Prop where
  failOn : Gate.IsThreshold g.failOn
  maxViolations : Gate.IsIntegerLimit g.maxViolations
  maxWarning : Gate.IsIntegerLimit g.maxWarning
  maxError : Gate.IsIntegerLimit g.maxError

/- A gate each of whose settings is kept or eased. -/
structure EasesTo (g g' : GateConfig) : Prop where
  failOn : g.failOn.EasesThreshold g'.failOn
  maxViolations : g.maxViolations.EasesLimit g'.maxViolations
  maxWarning : g.maxWarning.EasesLimit g'.maxWarning
  maxError : g.maxError.EasesLimit g'.maxError

end GateConfig

namespace Gate

/- What is tolerated is tolerated when the setting is eased. -/
theorem Tolerates.of_easesThreshold
    {failOn failOn' : Setting}
    {s : Severity}
    (h : Tolerates failOn s)
    (hEases : failOn.EasesThreshold failOn') :
    Tolerates failOn' s := by
  cases hEases with
  | kept => exact h
  | removed => exact Or.inl rfl
  | raised =>
      rcases h with ⟨⟨⟩⟩ | ⟨_, ⟨rfl⟩, hLess⟩
      exact
        Or.inr
          ⟨"error", rfl, hLess.trans (by decide)⟩

/- What is allowed is allowed when the limit is eased. -/
theorem Allows.of_easesLimit
    {limit limit' : Setting}
    {count few : Nat}
    (h : Allows limit count)
    (hLimit : IsIntegerLimit limit)
    (hEases : limit.EasesLimit limit')
    (hFew : few ≤ count) :
    Allows limit' few := by
  rcases hLimit with rfl | ⟨m, rfl⟩
  · cases hEases with
    | kept => exact Or.inl rfl
    | removed => exact Or.inl rfl
  · rcases h with ⟨⟨⟩⟩ | hCount
    have hCount := Setting.isAtLeast_integer_iff.mp hCount
    cases hEases with
    | kept =>
        exact
          Or.inr (Setting.isAtLeast_integer_iff.mpr (by omega))
    | raised hRaised =>
        exact
          Or.inr (Setting.isAtLeast_integer_iff.mpr (by omega))
    | removed => exact Or.inl rfl

------------------------------------------------------------
-- The Whole Gate
------------------------------------------------------------

variable {r r' : ScanResult}
variable {g g' : GateConfig}

/- Whether a result passes: whether no reason is found. -/
def verdict
    (r : ScanResult)
    (g : GateConfig) : Except GateError Bool :=
  (reasons r g).map List.isEmpty

/- A result passes when no reason is found. -/
theorem verdict_eq_true_iff :
    verdict r g = .ok true ↔ reasons r g = .ok [] := by
  simp [verdict, map_eq_ok_iff]

/- Results of the same violations give the same reasons. -/
theorem reasons_eq_of_perm
    (hRanked : r.IsRanked)
    (hPerm : r'.violations.Perm r.violations) :
    reasons r' g = reasons r g := by
  have hCount : ∀ s, r'.count s = r.count s :=
    fun _ => hPerm.countP_eq _
  simp only [reasons, severityReasons_eq_of_perm hRanked hPerm,
    hPerm.length_eq, hCount]

/- The limits of a gate with the counts that they are for. -/
def counted
    (r : ScanResult)
    (g : GateConfig) : List (Setting × Nat) :=
  [
    (g.maxViolations, r.violations.length),
    (g.maxWarning, r.count .warning),
    (g.maxError, r.count .error)
  ]

/- What evaluating a gate gives, part by part. -/
theorem reasons_eq_ok_iff
    {found : List GateReason} :
    reasons r g = .ok found ↔
      ∃ severity,
        severityReasons r.violations g.failOn = .ok severity ∧
      ∃ violations,
        limitReasons r.violations.length
            (.violations r.violations.length) g.maxViolations =
          .ok violations ∧
      ∃ warning,
        limitReasons (r.count .warning)
            (.level .warning (r.count .warning)) g.maxWarning =
          .ok warning ∧
      ∃ error,
        limitReasons (r.count .error)
            (.level .error (r.count .error)) g.maxError =
          .ok error ∧
      severity ++ violations ++ warning ++ error = found := by
  unfold reasons
  simp only [bind_eq_ok_iff, pure_eq_ok_iff]

/- A result is without reasons when nothing in it is too much. -/
theorem reasons_eq_nil_iff
    (hRanked : r.IsRanked)
    (hFailOn : IsThreshold g.failOn) :
    reasons r g = .ok [] ↔
      (∀ v ∈ r.violations, Tolerates g.failOn v.severity) ∧
        ∀ c ∈ counted r g, Allows c.1 c.2 := by
  rw [← severityReasons_eq_nil_iff hRanked hFailOn,
    reasons_eq_ok_iff]
  simp only [counted, List.forall_mem_cons,
    List.append_eq_nil_iff]
  constructor
  · rintro
      ⟨_, hSeverity, _, hTotal, _, hWarning, _, hError,
        ⟨⟨rfl, rfl⟩, rfl⟩, rfl⟩
    exact
      ⟨hSeverity, limitReasons_eq_nil_iff.mp hTotal,
        limitReasons_eq_nil_iff.mp hWarning,
        limitReasons_eq_nil_iff.mp hError, by simp⟩
  · rintro ⟨hSeverity, hTotal, hWarning, hError, -⟩
    exact
      ⟨_, hSeverity, _, limitReasons_eq_nil_iff.mpr hTotal,
        _, limitReasons_eq_nil_iff.mpr hWarning,
        _, limitReasons_eq_nil_iff.mpr hError,
        ⟨⟨rfl, rfl⟩, rfl⟩, rfl⟩

/- The gate is evaluated when its limits can be reported. -/
theorem exists_reasons_iff
    (hRanked : r.IsRanked)
    (hUsual : g.IsUsual) :
    (∃ found, reasons r g = .ok found) ↔
      ∀ c ∈ counted r g, IsReportable c.1 c.2 := by
  unfold reasons
  simp only [exists_bind_iff, pure_eq_ok_iff, exists_eq',
    and_true, exists_and_right, counted, List.forall_mem_cons,
    exists_severityReasons hRanked hUsual.failOn, true_and,
    exists_limitReasons_iff hUsual.maxViolations,
    exists_limitReasons_iff hUsual.maxWarning,
    exists_limitReasons_iff hUsual.maxError]
  simp

/- Nothing else keeps it from being evaluated. -/
theorem eq_tooLargeToWrite_of_reasons
    {e : GateError}
    (hRanked : r.IsRanked)
    (hUsual : g.IsUsual)
    (h : reasons r g = .error e) :
    e = .setting (.numeral .tooLargeToWrite) := by
  rcases exists_severityReasons hRanked hUsual.failOn with
    ⟨severity, hSeverity⟩
  unfold reasons at h
  simp only [bind_eq_error_iff, hSeverity, reduceCtorEq,
    false_or] at h
  rcases h with
    ⟨_, _, hTotal | ⟨_, _, hWarning | ⟨_, _, hError⟩⟩⟩
  · exact
      eq_tooLargeToWrite_of_limitReasons hUsual.maxViolations
        hTotal
  · exact
      eq_tooLargeToWrite_of_limitReasons hUsual.maxWarning
        hWarning
  · rcases hError with hError | ⟨_, _, hPure⟩
    · exact
        eq_tooLargeToWrite_of_limitReasons hUsual.maxError
          hError
    · cases hPure

/- The violations among others have ranks if those do. -/
theorem isRanked_of_subperm
    (hRanked : r.IsRanked)
    (hFewer : r'.violations.Subperm r.violations) :
    r'.IsRanked :=
  fun v hMem => hRanked v (hFewer.subset hMem)

/- An eased setting that was usual is usual. -/
theorem IsThreshold.of_easesThreshold
    {failOn failOn' : Setting}
    (h : IsThreshold failOn)
    (hEases : failOn.EasesThreshold failOn') :
    IsThreshold failOn' := by
  cases hEases with
  | kept => exact h
  | raised => exact Or.inr ⟨"error", by decide, rfl⟩
  | removed => exact Or.inl rfl

/-
  What passes a gate passes an eased one, and so does any part
  of it.
-/
theorem reasons_eq_nil_of_easesTo
    (hRanked : r.IsRanked)
    (hUsual : g.IsUsual)
    (h : reasons r g = .ok [])
    (hFewer : r'.violations.Subperm r.violations)
    (hEases : g.EasesTo g') :
    reasons r' g' = .ok [] := by
  have hFailOn' := hUsual.failOn.of_easesThreshold hEases.failOn
  have hRanked' := isRanked_of_subperm hRanked hFewer
  rcases (reasons_eq_nil_iff hRanked hUsual.failOn).mp h with
    ⟨hTolerates, hAllows⟩
  simp only [counted, List.forall_mem_cons] at hAllows
  rcases hAllows with ⟨hTotal, hWarning, hError, -⟩
  rw [reasons_eq_nil_iff hRanked' hFailOn']
  simp only [counted, List.forall_mem_cons]
  refine
    ⟨fun v hMem => ?_,
      hTotal.of_easesLimit hUsual.maxViolations
        hEases.maxViolations hFewer.length_le,
      hWarning.of_easesLimit hUsual.maxWarning
        hEases.maxWarning (hFewer.countP_le _),
      hError.of_easesLimit hUsual.maxError
        hEases.maxError (hFewer.countP_le _),
      by simp⟩
  exact
    (hTolerates v (hFewer.subset hMem)).of_easesThreshold
      hEases.failOn

------------------------------------------------------------
-- Gates of One Setting
------------------------------------------------------------

/- A gate that fails on a severity only. -/
def failingOn (label : String) : GateConfig :=
  { failOn := .text label }

/- A gate that allows no violation. -/
def allowingNone : GateConfig :=
  { maxViolations := .integer 0 }

/- A gate that allows no error. -/
def allowingNoError : GateConfig :=
  { maxError := .integer 0 }

/- A gate that fails on a label with a rank is usual. -/
theorem isUsual_failingOn
    {label : String}
    (h : label ∈ Severity.labels) :
    (failingOn label).IsUsual where
  failOn := Or.inr ⟨label, h, rfl⟩
  maxViolations := Or.inl rfl
  maxWarning := Or.inl rfl
  maxError := Or.inl rfl

/- A gate that allows no violation is usual. -/
theorem isUsual_allowingNone : allowingNone.IsUsual where
  failOn := Or.inl rfl
  maxViolations := Or.inr ⟨0, rfl⟩
  maxWarning := Or.inl rfl
  maxError := Or.inl rfl

/- A gate that allows no error is usual. -/
theorem isUsual_allowingNoError : allowingNoError.IsUsual where
  failOn := Or.inl rfl
  maxViolations := Or.inl rfl
  maxWarning := Or.inl rfl
  maxError := Or.inr ⟨0, rfl⟩

/- Where there is no limit, nothing has to be reported. -/
theorem isReportable_null
    {count : Nat} :
    IsReportable .null count :=
  fun _ hNull => nomatch hNull

/- The limit zero can be reported. -/
theorem isReportable_zero
    {count : Nat} :
    IsReportable (.integer 0) count := by
  rintro _ ⟨rfl⟩ _
  -- The power is not to be computed.
  generalize Numeral.digitLimit = digits
  exact Nat.pow_pos (by decide)

/- Where there is no limit, every count is allowed. -/
theorem allows_null
    {count : Nat} :
    Allows .null count :=
  Or.inl rfl

/- The limit zero allows the count zero. -/
theorem allows_zero_iff
    {count : Nat} :
    Allows (.integer 0) count ↔ count = 0 := by
  simp [Allows, Setting.isAtLeast_integer_iff]

/-
  A gate that fails on a severity only has the verdict of any
  other that can be evaluated and that the same results pass.
-/
theorem exists_verdict_failingOn
    {label : String}
    (hRanked : r.IsRanked)
    (hLabel : label ∈ Severity.labels)
    (hFound : ∃ found, reasons r g = .ok found)
    (hSame :
      (∀ v ∈ r.violations,
          Tolerates (.text label) v.severity) ↔
        reasons r g = .ok []) :
    ∃ passed,
      verdict r (failingOn label) = .ok passed ∧
        verdict r g = .ok passed := by
  have hUsual := isUsual_failingOn hLabel
  have hFailing :
      ∃ found, reasons r (failingOn label) = .ok found := by
    rw [exists_reasons_iff hRanked hUsual]
    simp [counted, failingOn, isReportable_null]
  have hPasses :
      reasons r (failingOn label) = .ok [] ↔
        reasons r g = .ok [] := by
    rw [← hSame, reasons_eq_nil_iff hRanked hUsual.failOn]
    simp [counted, failingOn, allows_null]
  rcases hFailing with ⟨found, hFailing⟩
  rcases hFound with ⟨found', hFound⟩
  have hEmpty : found.isEmpty = found'.isEmpty := by
    rw [hFailing, hFound, Except.ok.injEq, Except.ok.injEq]
      at hPasses
    rw [Bool.eq_iff_iff, List.isEmpty_iff, List.isEmpty_iff]
    exact hPasses
  refine ⟨found'.isEmpty, ?_, ?_⟩
  · rw [verdict, hFailing, ← hEmpty]
    rfl
  · rw [verdict, hFound]
    rfl

/- To fail on a warning is to allow no violation. -/
theorem exists_verdict_failingOn_warning
    (hRanked : r.IsRanked) :
    ∃ passed,
      verdict r (failingOn "warning") = .ok passed ∧
        verdict r allowingNone = .ok passed := by
  have hUsual := isUsual_allowingNone
  have hNone :
      (∀ v ∈ r.violations,
          Tolerates (.text "warning") v.severity) ↔
        r.violations = [] := by
    rw [List.eq_nil_iff_forall_not_mem]
    exact
      forall₂_congr fun v hMem =>
        iff_false_intro (not_tolerates_warning (hRanked v hMem))
  apply exists_verdict_failingOn hRanked (by decide)
  · rw [exists_reasons_iff hRanked hUsual]
    simp [counted, allowingNone, isReportable_null,
      isReportable_zero]
  · rw [hNone, reasons_eq_nil_iff hRanked hUsual.failOn]
    simp [counted, allowingNone, allows_null, allows_zero_iff,
      tolerates_null]

/- To fail on an error is to allow no error. -/
theorem exists_verdict_failingOn_error
    (hRanked : r.IsRanked) :
    ∃ passed,
      verdict r (failingOn "error") = .ok passed ∧
        verdict r allowingNoError = .ok passed := by
  have hUsual := isUsual_allowingNoError
  have hNone :
      (∀ v ∈ r.violations,
          Tolerates (.text "error") v.severity) ↔
        r.count .error = 0 := by
    rw [ScanResult.count, List.countP_eq_zero]
    refine forall₂_congr fun v hMem => ?_
    rw [tolerates_error_iff (hRanked v hMem)]
    simp
  apply exists_verdict_failingOn hRanked (by decide)
  · rw [exists_reasons_iff hRanked hUsual]
    simp [counted, allowingNoError, isReportable_null,
      isReportable_zero]
  · rw [hNone, reasons_eq_nil_iff hRanked hUsual.failOn]
    simp [counted, allowingNoError, allows_null,
      allows_zero_iff, tolerates_null]

------------------------------------------------------------
-- Order and Leniency
------------------------------------------------------------

/-
  The gate is blind to the order of the violations, and it is
  evaluated as long as the limits that are exceeded can be
  reported.  What passes it passes with violations left out and
  settings eased.  To fail on a warning is to allow no
  violation, and to fail on an error is to allow no error.
-/
theorem order_blind_and_monotone
    {r : ScanResult}
    {g : GateConfig}
    (hRanked : r.IsRanked)
    (hUsual : g.IsUsual) :
    (∀ r' : ScanResult,
        r'.violations.Perm r.violations →
          reasons r' g = reasons r g) ∧
      ((∃ found, reasons r g = .ok found) ↔
        ∀ c ∈ counted r g, IsReportable c.1 c.2) ∧
      (verdict r g = .ok true →
        ∀ r' : ScanResult,
          r'.violations.Subperm r.violations →
            ∀ g', g.EasesTo g' →
              verdict r' g' = .ok true) ∧
      (∃ passed,
        verdict r (failingOn "warning") = .ok passed ∧
          verdict r allowingNone = .ok passed) ∧
      ∃ passed,
        verdict r (failingOn "error") = .ok passed ∧
          verdict r allowingNoError = .ok passed := by
  refine
    ⟨fun r' hPerm => reasons_eq_of_perm hRanked hPerm,
      exists_reasons_iff hRanked hUsual, ?_,
      exists_verdict_failingOn_warning hRanked,
      exists_verdict_failingOn_error hRanked⟩
  intro hPasses r' hFewer g' hEases
  exact
    verdict_eq_true_iff.mpr
      (reasons_eq_nil_of_easesTo hRanked hUsual
        (verdict_eq_true_iff.mp hPasses) hFewer hEases)

/- A warning in the first line of a file. -/
def warningIn (path : String) : Violation :=
  { ruleId := CommentSpacing.info.identifier
    title := CommentSpacing.info.name
    severity := .warning
    message := CommentSpacing.info.description
    location :=
      { path := path
        offset := 0
        line := 1
        column := 1 } }

/- Two warnings. -/
def twoWarnings : ScanResult :=
  { violations := [warningIn "a.c", warningIn "b.c"]
    filesScanned := 2 }

/- A gate that fails on an error and allows two violations. -/
def allowingTwo : GateConfig :=
  { failOn := .text "error"
    maxViolations := .integer 2 }

/- A gate that allows three violations. -/
def allowingThree : GateConfig :=
  { maxViolations := .integer 3 }

/-
  Two warnings are the same to a gate in either order, and one
  of them alone passes an eased one.
-/
theorem order_blind_and_monotone_twoWarnings :
    twoWarnings.IsRanked ∧
      allowingTwo.IsUsual ∧
      reasons
          { violations := [warningIn "b.c", warningIn "a.c"]
            filesScanned := 2 }
          allowingTwo =
        reasons twoWarnings allowingTwo ∧
      verdict twoWarnings allowingTwo = .ok true ∧
      verdict
          { violations := [warningIn "b.c"]
            filesScanned := 1 }
          allowingThree =
        .ok true := by
  have hRanked : twoWarnings.IsRanked := by
    intro v hMem
    rcases List.mem_pair.mp hMem with rfl | rfl
    · exact Or.inl rfl
    · exact Or.inl rfl
  have hUsual : allowingTwo.IsUsual :=
    { failOn := Or.inr ⟨"error", by decide, rfl⟩
      maxViolations := Or.inr ⟨2, rfl⟩
      maxWarning := Or.inl rfl
      maxError := Or.inl rfl }
  have hPasses : verdict twoWarnings allowingTwo = .ok true :=
    rfl
  have hEases : allowingTwo.EasesTo allowingThree :=
    { failOn := .removed
      maxViolations := .raised (by decide)
      maxWarning := .kept
      maxError := .kept }
  rcases order_blind_and_monotone hRanked hUsual with
    ⟨hPerm, _, hMonotone, _⟩
  exact
    ⟨hRanked, hUsual, hPerm _ (List.Perm.swap _ _ _), hPasses,
      hMonotone hPasses _ (List.sublist_cons_self _ _).subperm
        _ hEases⟩

end Gate

end CommentLint
