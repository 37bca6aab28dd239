import CommentLint.Proofs.Rule.FileOrder
import CommentLint.Proofs.Rule.MarkedText

/-
  Examples that a rule passes.

  A text has one marking that passes as a triggering example:
  the one with a marker before every character that the rule
  flags.  A text in which it flags none passes only as an
  example that does not trigger the rule.

  Key definitions include:
    * `Rule.FlagsGlued`
    * `Rule.withExamples`
    * `Rule.flaggedText`

  Key results include:
    * `Rule.FlagsGlued.fits_flaggedText`
    * `Rule.FlagsGlued.exampleFailures_one_marking`
-/

namespace CommentLint

namespace Rule

------------------------------------------------------------
-- Rules and Their Examples
------------------------------------------------------------

/- A rule that finds what the spacing rule finds. -/
def FlagsGlued (r : Rule) : Prop :=
  r.findings = CommentSpacing.findings

/- The rule with other examples. -/
def withExamples
    (r : Rule)
    (nonTriggering triggering : List String) : Rule :=
  { r with
    info := {
      r.info with
      nonTriggering := nonTriggering
      triggering := triggering
    } }

/- A text and the offsets at which a rule flags it. -/
def flaggedText
    (r : Rule)
    (text : List Char) : MarkedText :=
  ⟨text, (r.offsetsIn text).map Int.toNat⟩

section Examples

variable {r : Rule}
variable {text : List Char}

/- The offsets of a rule are those that it flags. -/
theorem offsetsIn_eq_filterMap
    (r : Rule)
    (text : List Char) :
    r.offsetsIn text =
      (r.findings
        (SourceFile.read (Utf8.encode text)
          examplePath)).filterMap fun
        | .flagged offset => some offset
        | .unresolved _ => none := by
  unfold offsetsIn violations
  rw [List.map_filterMap]
  apply List.filterMap_congr
  intro finding _
  cases finding with
  | flagged offset =>
      exact congrArg some (SourceFile.location_offset _ offset)
  | unresolved _ => rfl

/- Examples change nothing of what a rule flags. -/
theorem offsetsIn_withExamples
    (r : Rule)
    (nonTriggering triggering : List String)
    (text : List Char) :
    (r.withExamples nonTriggering triggering).offsetsIn text =
      r.offsetsIn text := by
  rw [offsetsIn_eq_filterMap, offsetsIn_eq_filterMap]
  rfl

/- The failure of a rule whose one example is to trigger it. -/
theorem exampleFailures_triggering
    (r : Rule)
    (e : String) :
    (r.withExamples [] [e]).exampleFailures =
      (r.triggeringFailure? e.toList).toList := by
  have hSame :
      (r.withExamples [] [e]).triggeringFailure? e.toList =
        r.triggeringFailure? e.toList := by
    simp only [triggeringFailure?, offsetsIn_withExamples]
  rw [← hSame]
  unfold exampleFailures
  simp only [withExamples, List.filterMap_nil, List.nil_append,
    List.filterMap_cons]
  cases triggeringFailure? _ e.toList <;> rfl

/- The failure of a rule whose one example is not to trigger it. -/
theorem exampleFailures_nonTriggering
    (r : Rule)
    (e : String) :
    (r.withExamples [e] []).exampleFailures =
      (r.nonTriggeringFailure? e.toList).toList := by
  have hSame :
      (r.withExamples [e] []).nonTriggeringFailure? e.toList =
        r.nonTriggeringFailure? e.toList := by
    simp only [nonTriggeringFailure?, offsetsIn_withExamples]
  rw [← hSame]
  unfold exampleFailures
  simp only [withExamples, List.filterMap_nil, List.append_nil,
    List.filterMap_cons]
  cases nonTriggeringFailure? _ e.toList <;> rfl

/-
  A triggering example passes when it has markers and they
  stand where the rule flags its text.
-/
theorem triggeringFailure?_eq_none_iff
    {e : List Char} :
    r.triggeringFailure? e = none ↔
      (MarkedText.parse e).offsets ≠ [] ∧
        r.offsetsIn (MarkedText.parse e).text =
          (MarkedText.parse e).offsets.map Int.ofNat := by
  unfold triggeringFailure?
  simp only [List.isEmpty_map, List.isEmpty_iff]
  split
  case isTrue hNone => simp [hNone]
  case isFalse hSome =>
    split
    case isTrue hSame => simp [hSome, hSame]
    case isFalse hOther => simp [hOther]

/- A text that the rule does not flag triggers nothing. -/
theorem nonTriggeringFailure?_eq_none_iff
    {e : List Char} :
    r.nonTriggeringFailure? e = none ↔
      r.offsetsIn (MarkedText.parse e).text = [] := by
  unfold nonTriggeringFailure?
  simp only [List.isEmpty_iff]
  split
  case isTrue hNone => simp [hNone]
  case isFalse hSome => simp [hSome]

end Examples

------------------------------------------------------------
-- Flagged Offsets
------------------------------------------------------------

namespace FlagsGlued

open Ascii Utf8

variable {r : Rule}
variable {text : List Char}

/- The offsets that are flagged are in order, between characters. -/
theorem offsetsIn_ordered
    (h : r.FlagsGlued)
    (text : List Char) :
    (r.offsetsIn text).Pairwise (· < ·) ∧
      ∀ o ∈ r.offsetsIn text,
        ∃ n : Nat, o = n ∧ IsBoundary text n := by
  let f := SourceFile.read (encode text) examplePath
  have hScans : Lexer.Scans f.dialect f.data 0 f.spans :=
    SourceFile.scans_ofBytes (encode text) examplePath none
  have hOrder :=
    CommentSpacing.violations_inFileOrder .warning hScans
  have hOffsets :
      r.offsetsIn text =
        ((CommentSpacing.rule .warning).violations f).map
          fun v => v.location.offset := by
    rw [offsetsIn_eq_filterMap, h]
    exact
      (offsetsIn_eq_filterMap (CommentSpacing.rule .warning)
        text).symm
  rw [hOffsets]
  refine ⟨List.pairwise_map.mpr hOrder.offsets, ?_⟩
  intro o hMem
  rcases List.mem_map.mp hMem with ⟨v, hViolation, rfl⟩
  rcases hOrder.comes v hViolation with ⟨s, _, hComes⟩
  rcases CommentSpacing.exists_split_of_flagged? hComes.flagged
    with ⟨a, c, rest, hData, hOffset, _⟩
  have hSlash : (encode text)[a.length + 1]? = some slash := by
    change f.data[a.length + 1]? = some slash
    rw [hData]
    simp
  exact
    ⟨a.length + 2, hOffset,
      isBoundary_succ_of_ascii hSlash (by decide)⟩

/- The offsets that are flagged count bytes. -/
theorem offsetsIn_eq_map
    (h : r.FlagsGlued)
    (text : List Char) :
    r.offsetsIn text =
      (r.flaggedText text).offsets.map Int.ofNat := by
  have hCount :
      ∀ o ∈ r.offsetsIn text, (Int.ofNat ∘ Int.toNat) o = id o := by
    intro o hMem
    rcases (h.offsetsIn_ordered text).2 o hMem with ⟨n, rfl, _⟩
    rfl
  unfold flaggedText
  rw [List.map_map, List.map_congr_left hCount, List.map_id]

/- Markers can be put where a text without markers is flagged. -/
theorem fits_flaggedText
    (h : r.FlagsGlued)
    (hClean : MarkedText.marker ∉ text) :
    (r.flaggedText text).Fits := by
  rcases h.offsetsIn_ordered text with ⟨hOrdered, hBetween⟩
  refine ⟨hClean, ?_, ?_⟩
  · apply List.pairwise_map.mpr
    apply hOrdered.imp
    intro o p hLt
    omega
  · intro o hMem
    rcases List.mem_map.mp hMem with ⟨p, hOffset, rfl⟩
    rcases hBetween p hOffset with ⟨n, rfl, hn⟩
    exact hn

/- A triggering example passes when it marks what is flagged. -/
theorem triggeringFailure?_eq_none_iff_marked
    (h : r.FlagsGlued)
    {e : List Char}
    (hText : (MarkedText.parse e).text = text) :
    r.triggeringFailure? e = none ↔
      r.offsetsIn text ≠ [] ∧ e = (r.flaggedText text).marked := by
  have hClean : MarkedText.marker ∉ text :=
    hText ▸ (MarkedText.fits_parse e).clean
  have hSame :
      r.offsetsIn text =
          (MarkedText.parse e).offsets.map Int.ofNat ↔
        MarkedText.parse e = r.flaggedText text := by
    rw [h.offsetsIn_eq_map text,
      List.map_inj_right (fun _ _ hNat => Int.ofNat.inj hNat)]
    constructor
    · intro hOffsets
      calc
        MarkedText.parse e =
            ⟨(MarkedText.parse e).text,
              (MarkedText.parse e).offsets⟩ := rfl
        _ = ⟨text, (r.flaggedText text).offsets⟩ := by
          rw [hText, hOffsets]
        _ = r.flaggedText text := rfl
    · intro hParse
      rw [hParse]
  rw [triggeringFailure?_eq_none_iff, hText, hSame,
    MarkedText.parse_eq_iff (h.fits_flaggedText hClean)]
  apply and_congr_left
  rintro rfl
  rw [MarkedText.parse_marked (h.fits_flaggedText hClean)]
  simp [flaggedText]

/-
  Each text has one passing marking.  Where the rule flags the
  text, the example with a marker at every flagged offset
  passes, and any other triggering example of that text fails
  in one way.  Where it flags nothing, every triggering example
  of the text fails, and every other one passes.
-/
theorem exampleFailures_one_marking
    (h : r.FlagsGlued)
    (hClean : MarkedText.marker ∉ text) :
    let passing := String.ofList (r.flaggedText text).marked
    (∀ o ∈ r.offsetsIn text,
      ∃ n : Nat, o = n ∧ IsBoundary text n) ∧
    (MarkedText.parse passing.toList).text = text ∧
    (r.offsetsIn text ≠ [] →
      (r.withExamples [] [passing]).exampleFailures = [] ∧
      ∀ e : String,
        (MarkedText.parse e.toList).text = text → e ≠ passing →
          ∃ failure,
            (r.withExamples [] [e]).exampleFailures =
              [failure]) ∧
    (r.offsetsIn text = [] →
      ∀ e : String,
        (MarkedText.parse e.toList).text = text →
          (∃ failure,
            (r.withExamples [] [e]).exampleFailures =
              [failure]) ∧
          (r.withExamples [e] []).exampleFailures = []) := by
  intro passing
  have hParse :
      MarkedText.parse passing.toList = r.flaggedText text := by
    rw [String.toList_ofList]
    exact MarkedText.parse_marked (h.fits_flaggedText hClean)
  have hPassing :
      (MarkedText.parse passing.toList).text = text := by
    rw [hParse]
    rfl
  have hFails :
      ∀ e : String,
        r.triggeringFailure? e.toList ≠ none →
          ∃ failure,
            (r.withExamples [] [e]).exampleFailures =
              [failure] := by
    intro e hSome
    rcases Option.ne_none_iff_exists'.mp hSome with
      ⟨failure, hFailure⟩
    exact
      ⟨failure, by rw [exampleFailures_triggering, hFailure]; rfl⟩
  refine
    ⟨(h.offsetsIn_ordered text).2, hPassing, ?_, ?_⟩
  · intro hFlagged
    constructor
    · have hNone :=
        (h.triggeringFailure?_eq_none_iff_marked hPassing).mpr
          ⟨hFlagged, String.toList_ofList⟩
      rw [exampleFailures_triggering, hNone]
      rfl
    · intro e hText hOther
      apply hFails
      rw [Ne, h.triggeringFailure?_eq_none_iff_marked hText]
      rintro ⟨_, hMarked⟩
      apply hOther
      rw [← String.ofList_toList (s := e), hMarked]
  · intro hNothing e hText
    constructor
    · apply hFails
      rw [Ne, h.triggeringFailure?_eq_none_iff_marked hText]
      exact fun hMarked => hMarked.1 hNothing
    · have hNone : r.nonTriggeringFailure? e.toList = none := by
        rw [nonTriggeringFailure?_eq_none_iff, hText, hNothing]
      rw [exampleFailures_nonTriggering, hNone]
      rfl

/- Two comments in a text of which one has an accent. -/
theorem exampleFailures_one_marking_accent :
    (CommentSpacing.rule .error).FlagsGlued ∧
      MarkedText.marker ∉ "//é\n///x".toList ∧
      ((CommentSpacing.rule .error).withExamples []
        ["//↓é\n///↓x"]).exampleFailures = [] := by
  have hClean : MarkedText.marker ∉ "//é\n///x".toList := by
    decide
  have hFlagged :
      (CommentSpacing.rule .error).offsetsIn "//é\n///x".toList =
        [2, 8] := by
    decide
  rcases @exampleFailures_one_marking (CommentSpacing.rule .error)
      "//é\n///x".toList rfl hClean with
    ⟨_, _, hPasses, _⟩
  have hMarked :
      String.ofList
          ((CommentSpacing.rule .error).flaggedText
            "//é\n///x".toList).marked =
        "//↓é\n///↓x" := by
    decide
  have hSome :
      (CommentSpacing.rule .error).offsetsIn
        "//é\n///x".toList ≠ [] := by
    rw [hFlagged]
    exact List.cons_ne_nil _ _
  rw [hMarked] at hPasses
  exact ⟨rfl, hClean, (hPasses hSome).1⟩

end FlagsGlued

end Rule

end CommentLint
