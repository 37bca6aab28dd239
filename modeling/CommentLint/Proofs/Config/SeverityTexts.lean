import CommentLint.Proofs.Config.MergedFields
import Mathlib.Data.List.TakeWhile

/-
  Texts of severities, and what they give in a row.

  A severity option gives a rule a level: they are the sides
  of its first `=`, without the whitespace around them.  Where
  there is no such character, or nothing but whitespace on a
  side of it, the option is malformed.  Options are applied in
  order up to the first malformed one, and the last one counts
  for its rule.

  Key definitions include:
    * `Trims`
    * `GivesSeverity`
    * `IsMalformedSeverity`
    * `IsFirstMalformed`

  Key results include:
    * `trims_strip`
    * `severityOption?_eq_none_iff`
    * `givesSeverity_of_severityOption?`
    * `Config.lookup_putSeverities`
    * `Config.mergeSeverities_append`
    * `Config.exists_of_mergeSeverities_eq_error`
-/

namespace CommentLint

------------------------------------------------------------
-- Margins of Whitespace
------------------------------------------------------------

/-
  A text is a core between margins of whitespace.  The core
  has no whitespace at its own ends.
-/
structure Trims (text core : List Char) : Prop where
  margins :
    ∃ before after,
      text = before ++ core ++ after ∧
        (∀ c ∈ before, isBlank c = true) ∧
          ∀ c ∈ after, isBlank c = true
  head : ∀ c ∈ core.head?, isBlank c = false
  last : ∀ c ∈ core.getLast?, isBlank c = false

/- A text is what is left of it between its margins. -/
theorem trims_strip (text : List Char) :
    Trims text (strip text) := by
  -- The end of a text is the start of its reverse.
  let rest := text.dropWhile isBlank
  let margin := (rest.reverse.takeWhile isBlank).reverse
  have hFront : text.takeWhile isBlank ++ rest = text :=
    List.takeWhile_append_dropWhile
  have hBack : strip text ++ margin = rest := by
    change (rest.reverse.dropWhile isBlank).reverse ++ margin = _
    rw [← List.reverse_append, List.takeWhile_append_dropWhile,
      List.reverse_reverse]
  refine ⟨⟨text.takeWhile isBlank, margin, ?_, ?_, ?_⟩, ?_, ?_⟩
  · rw [List.append_assoc, hBack, hFront]
  · exact fun c hc => List.mem_takeWhile_imp hc
  · exact fun c hc =>
      List.mem_takeWhile_imp (List.mem_reverse.mp hc)
  · intro c hc
    have hHead : rest.head? = some c := by
      rw [← hBack, List.head?_append, Option.mem_def.mp hc]
      rfl
    have hNot := List.head?_dropWhile_not isBlank text
    rw [show (text.dropWhile isBlank).head? = some c from hHead]
      at hNot
    exact hNot
  · intro c hc
    have hLast : (rest.reverse.dropWhile isBlank).head? = some c := by
      rw [← List.getLast?_reverse]
      exact hc
    have hNot := List.head?_dropWhile_not isBlank rest.reverse
    rw [hLast] at hNot
    exact hNot

/- Nothing is left of whitespace, and of nothing else. -/
theorem strip_eq_nil_iff {text : List Char} :
    strip text = [] ↔ ∀ c ∈ text, isBlank c = true := by
  have hTrims := trims_strip text
  rcases hTrims.margins with
    ⟨before, after, hText, hBefore, hAfter⟩
  constructor
  · intro hNil c hc
    rw [hText, hNil, List.append_nil] at hc
    exact (List.mem_append.mp hc).elim (hBefore c) (hAfter c)
  · intro hBlank
    cases hCore : strip text with
    | nil => rfl
    | cons c rest =>
        have hMem : c ∈ text := by
          rw [hText, hCore]
          simp
        have hHead := hTrims.head c (by rw [hCore]; rfl)
        rw [hBlank c hMem] at hHead
        cases hHead

------------------------------------------------------------
-- Texts of Severities
------------------------------------------------------------

/-
  A text gives a rule a level: both are in small letters, and
  are what is left of the sides of its first `=`.
-/
def GivesSeverity
    (text : String)
    (pair : String × String) : Prop :=
  ∃ before after rule level,
    text.toList = before ++ '=' :: after ∧ '=' ∉ before ∧
      Trims before rule ∧ rule ≠ [] ∧
        Trims after level ∧ level ≠ [] ∧
          pair =
            (String.ofList (Casing.lower rule),
              String.ofList (Casing.lower level))

/-
  A text has no `=`, or has nothing but whitespace on a side of
  its first one.
-/
def IsMalformedSeverity (text : String) : Prop :=
  '=' ∉ text.toList ∨
    ∃ before after,
      text.toList = before ++ '=' :: after ∧ '=' ∉ before ∧
        ((∀ c ∈ before, isBlank c = true) ∨
          ∀ c ∈ after, isBlank c = true)

/-
  A text is the first malformed one of the severities that are
  given; the pairs are those of the severities before it.
-/
def IsFirstMalformed
    (given : List (Given String))
    (pairs : List (String × String))
    (text : String) : Prop :=
  ∃ before after,
    given = before.map .value ++ .value text :: after ∧
      List.Forall₂ GivesSeverity before pairs ∧
        (∀ t ∈ before, ¬ IsMalformedSeverity t) ∧
          IsMalformedSeverity text

section SeverityTexts

variable {text : String}
variable {before after : List Char}

/- The search for a `=` passes over what has none. -/
theorem passes_of_not_mem
    {side : List Char}
    (h : '=' ∉ side) :
    ∀ c ∈ side, (c != '=') = true := by
  intro c hc
  exact bne_iff_ne.mpr fun hEq => h (hEq ▸ hc)

/- A text without a `=` gives no severity. -/
theorem severityOption?_of_not_mem
    (h : '=' ∉ text.toList) :
    severityOption? text = none := by
  unfold severityOption?
  dsimp only
  rw [List.dropWhile_eq_nil_iff.mpr (passes_of_not_mem h)]

/- What a text gives is between the margins of its two sides. -/
theorem severityOption?_of_split
    (hText : text.toList = before ++ '=' :: after)
    (hFirst : '=' ∉ before) :
    severityOption? text =
      if strip before = [] ∨ strip after = [] then none
      else
        some
          (String.ofList (Casing.lower (strip before)),
            String.ofList (Casing.lower (strip after))) := by
  have hTake :
      (before ++ '=' :: after).takeWhile (· != '=') = before := by
    rw [List.takeWhile_append_of_pos (passes_of_not_mem hFirst)]
    simp
  have hDrop :
      (before ++ '=' :: after).dropWhile (· != '=') =
        '=' :: after := by
    rw [List.dropWhile_append_of_pos (passes_of_not_mem hFirst)]
    simp
  unfold severityOption?
  dsimp only
  rw [hText, hDrop, hTake]
  simp only [Bool.or_eq_true, List.isEmpty_iff]

/- Severities are missing from the texts that are malformed. -/
theorem severityOption?_eq_none_iff :
    severityOption? text = none ↔ IsMalformedSeverity text := by
  constructor
  · intro hNone
    by_cases hMem : '=' ∈ text.toList
    · rcases List.eq_append_cons_of_mem hMem with
        ⟨before, after, hText, hFirst⟩
      rw [severityOption?_of_split hText hFirst] at hNone
      have hSide : strip before = [] ∨ strip after = [] := by
        by_contra hSides
        rw [if_neg hSides] at hNone
        cases hNone
      rw [strip_eq_nil_iff, strip_eq_nil_iff] at hSide
      exact Or.inr ⟨before, after, hText, hFirst, hSide⟩
    · exact Or.inl hMem
  · rintro (hNot | ⟨before, after, hText, hFirst, hSide⟩)
    · exact severityOption?_of_not_mem hNot
    · rw [← strip_eq_nil_iff, ← strip_eq_nil_iff] at hSide
      rw [severityOption?_of_split hText hFirst, if_pos hSide]

/- Texts that are read give the severity that is read. -/
theorem givesSeverity_of_severityOption?
    {pair : String × String}
    (h : severityOption? text = some pair) :
    GivesSeverity text pair := by
  have hMem : '=' ∈ text.toList := by
    by_contra hNot
    rw [severityOption?_of_not_mem hNot] at h
    cases h
  rcases List.eq_append_cons_of_mem hMem with
    ⟨before, after, hText, hFirst⟩
  rw [severityOption?_of_split hText hFirst] at h
  split at h
  · cases h
  · rename_i hSides
    rw [not_or] at hSides
    exact
      ⟨before, after, strip before, strip after, hText, hFirst,
        trims_strip before, hSides.1, trims_strip after,
        hSides.2, (Option.some.inj h).symm⟩

end SeverityTexts

------------------------------------------------------------
-- Severities in Order
------------------------------------------------------------

namespace Config

variable {c soFar : Config}
variable {text : String}
variable {given : List (Given String)}

/- A rule has the severity that it is given; the others keep theirs. -/
theorem lookup_putSeverity
    (id id' level : String)
    (severities : List (String × String)) :
    (putSeverity id' level severities).lookup id =
      if id = id' then some level else severities.lookup id := by
  induction severities with
  | nil =>
      by_cases hId : id = id'
      · simp [putSeverity, hId]
      · simp [putSeverity, hId, beq_false_of_ne hId]
  | cons p rest ih =>
      by_cases hPlace : p.1 = id'
      · rw [putSeverity, if_pos hPlace, List.lookup_cons,
          List.lookup_cons, hPlace]
        by_cases hId : id = id'
        · simp [hId]
        · simp [beq_false_of_ne hId, hId]
      · rw [putSeverity, if_neg hPlace, List.lookup_cons,
          List.lookup_cons, ih]
        by_cases hId : id = p.1
        · simp [hId, hPlace]
        · simp [beq_false_of_ne hId]

/- A rule has the last severity that it is given, or its own. -/
theorem lookup_putSeverities
    (id : String)
    (pairs severities : List (String × String)) :
    (putSeverities pairs severities).lookup id =
      (pairs.reverse.lookup id).or (severities.lookup id) := by
  induction pairs generalizing severities with
  | nil => rfl
  | cons p rest ih =>
      change
        (putSeverities rest
          (putSeverity p.1 p.2 severities)).lookup id = _
      rw [ih, lookup_putSeverity, List.reverse_cons,
        List.lookup_append, Option.or_assoc]
      congr 1
      rw [List.lookup_singleton]
      by_cases hId : id = p.1 <;> simp [hId]

/- A severity that is given is put, and merging goes on. -/
theorem mergeSeverities_of_eq_some
    {pair : String × String}
    (h : severityOption? text = some pair)
    (rest : List (Given String)) :
    c.mergeSeverities (.value text :: rest) =
      mergeSeverities
        { c with
          severities := putSeverity pair.1 pair.2 c.severities }
        rest := by
  rw [mergeSeverities, h]

/- A malformed severity stops merging, and changes nothing. -/
theorem mergeSeverities_of_isMalformed
    (h : IsMalformedSeverity text)
    (rest : List (Given String)) :
    c.mergeSeverities (.value text :: rest) =
      .error (.malformedSeverity text c) := by
  rw [mergeSeverities, severityOption?_eq_none_iff.mpr h]

/- Severities may be merged in parts. -/
theorem mergeSeverities_append
    (given more : List (Given String)) :
    c.mergeSeverities (given ++ more) =
      (c.mergeSeverities given).bind fun c =>
        c.mergeSeverities more := by
  induction given generalizing c with
  | nil => rfl
  | cons g rest ih =>
      cases g with
      | nothing => rfl
      | value t =>
          rw [List.cons_append, mergeSeverities, mergeSeverities]
          cases severityOption? t with
          | none => rfl
          | some pair => exact ih

/- A malformed severity stops merging, or one before it does. -/
theorem exists_malformed_of_mergeSeverities
    {before : List (Given String)}
    (hValues : .nothing ∉ before)
    (hText : IsMalformedSeverity text)
    (after : List (Given String)) :
    ∃ text' soFar,
      c.mergeSeverities (before ++ .value text :: after) =
        .error (.malformedSeverity text' soFar) := by
  rw [mergeSeverities_append]
  rcases mergeSeverities_cases (c := c) hValues with
    ⟨c', hBefore⟩ | ⟨text', soFar, hBefore⟩
  · refine ⟨text, c', ?_⟩
    rw [hBefore]
    exact mergeSeverities_of_isMalformed hText after
  · refine ⟨text', soFar, ?_⟩
    rw [hBefore]
    rfl

/-
  Where merging severities stops at a malformed one, those
  before it are given one after another and nothing else is
  changed.
-/
theorem exists_of_mergeSeverities_eq_error
    (h :
      c.mergeSeverities given =
        .error (.malformedSeverity text soFar)) :
    ∃ pairs,
      IsFirstMalformed given pairs text ∧
        soFar =
          { c with
            severities := putSeverities pairs c.severities } := by
  induction given generalizing c with
  | nil => cases h
  | cons g rest ih =>
      cases g with
      | nothing => cases h
      | value t =>
          cases hOption : severityOption? t with
          | none =>
              have hText := severityOption?_eq_none_iff.mp hOption
              rw [mergeSeverities_of_isMalformed hText] at h
              cases h
              exact
                ⟨[], ⟨[], rest, rfl, .nil, nofun, hText⟩, rfl⟩
          | some pair =>
              -- The rest stops from where this severity is put.
              rw [mergeSeverities_of_eq_some hOption] at h
              rcases ih h with
                ⟨pairs, ⟨before, after, rfl, hGive, hNone, hText⟩,
                  rfl⟩
              have hGives :=
                givesSeverity_of_severityOption? hOption
              have hFormed : ¬ IsMalformedSeverity t := by
                rw [← severityOption?_eq_none_iff, hOption]
                exact Option.some_ne_none pair
              exact
                ⟨pair :: pairs,
                  ⟨t :: before, after, rfl, .cons hGives hGive,
                    List.forall_mem_cons.mpr ⟨hFormed, hNone⟩,
                    hText⟩,
                  rfl⟩

/- Severities fail in no other way than by missing a value. -/
theorem eq_notText_of_mergeSeverities
    {cause : SettingError}
    (h : c.mergeSeverities given = .error (.setting cause)) :
    cause = .notText := by
  induction given generalizing c with
  | nil => cases h
  | cons g rest ih =>
      cases g with
      | nothing =>
          cases h
          rfl
      | value t =>
          cases hOption : severityOption? t with
          | none =>
              have hText := severityOption?_eq_none_iff.mp hOption
              rw [mergeSeverities_of_isMalformed hText] at h
              cases h
          | some pair =>
              rw [mergeSeverities_of_eq_some hOption] at h
              exact ih h

end Config

end CommentLint
