import CommentLint.Text.Pattern
import Mathlib.Data.List.Forall2
import Mathlib.Tactic.Common

/-
  What patterns match.

  A repetition matches in one way for each of the texts that
  it can take, and takes the longest one for which the rest
  matches.  A search passes over the places at which a pattern
  fails and stops at the first at which it does not.

  Key definitions include:
    * `Pattern.Spells`

  Key results include:
    * `Pattern.takeMany_eq_none_iff`
    * `Pattern.takeMany_eq_of_dropWhile`
    * `Pattern.attempt_behind`
    * `Pattern.search?_eq_none_iff`
    * `Pattern.search?_append`
-/

namespace CommentLint

namespace Pattern

variable {accepts : Char → Bool}
variable {text : List Char}
variable {found : Way}

------------------------------------------------------------
-- Repetitions
------------------------------------------------------------

section Repetition

variable {next : List Char → Option Way}

/- A repetition gives what follows some text of its characters. -/
theorem exists_of_takeMany
    (h : takeMany accepts next text = some found) :
    ∃ taken rest,
      text = taken ++ rest ∧ taken ≠ [] ∧
        (∀ c ∈ taken, accepts c = true) ∧
          next rest = some found := by
  induction text with
  | nil => cases h
  | cons c text ih =>
      unfold takeMany at h
      split at h
      · rename_i hAccepts
        split at h
        · rename_i hMore
          cases h
          rcases ih hMore with
            ⟨taken, rest, rfl, _, hTaken, hNext⟩
          refine ⟨c :: taken, rest, rfl, by simp, ?_, hNext⟩
          exact List.forall_mem_cons.mpr ⟨hAccepts, hTaken⟩
        · exact ⟨[c], text, rfl, by simp, by simpa, h⟩
      · cases h

/- A repetition fails when nothing that it can take serves. -/
theorem takeMany_eq_none_iff :
    takeMany accepts next text = none ↔
      ∀ taken rest,
        text = taken ++ rest → taken ≠ [] →
          (∀ c ∈ taken, accepts c = true) →
            next rest = none := by
  constructor
  · intro h taken rest hText hTaken hAccepts
    induction taken generalizing text with
    | nil => exact absurd rfl hTaken
    | cons c taken ih =>
        subst hText
        rcases List.forall_mem_cons.mp hAccepts with
          ⟨hFirst, hOthers⟩
        rw [List.cons_append, takeMany, if_pos hFirst] at h
        split at h
        · cases h
        · rename_i hMore
          cases taken with
          | nil => exact h
          | cons d taken => exact ih hMore rfl (by simp) hOthers
  · intro h
    rw [Option.eq_none_iff_forall_ne_some]
    intro found hFound
    rcases exists_of_takeMany hFound with
      ⟨taken, rest, hText, hTaken, hAccepts, hNext⟩
    rw [h taken rest hText hTaken hAccepts] at hNext
    cases hNext

/- A repetition takes all that it can if the rest matches then. -/
theorem takeMany_eq_of_dropWhile
    (hTaken : text.takeWhile accepts ≠ [])
    (hNext : next (text.dropWhile accepts) = some found) :
    takeMany accepts next text = some found := by
  induction text with
  | nil => exact absurd rfl hTaken
  | cons c text ih =>
      have hAccepts : accepts c = true := by
        by_contra hNot
        rw [List.takeWhile_cons_of_neg hNot] at hTaken
        exact hTaken rfl
      rw [List.dropWhile_cons_of_pos hAccepts] at hNext
      rw [takeMany, if_pos hAccepts]
      by_cases hMore : text.takeWhile accepts = []
      · -- Nothing more can be taken, so that trying to fails.
        have hNone : takeMany accepts next text = none := by
          rw [takeMany_eq_none_iff]
          rintro taken rest rfl hSome hAll
          rw [List.takeWhile_append_of_pos hAll] at hMore
          exact absurd (List.append_eq_nil_iff.mp hMore).1 hSome
        have hSame := List.takeWhile_append_dropWhile
          (p := accepts) (l := text)
        rw [hMore, List.nil_append] at hSame
        rw [hNone, ← hNext, hSame]
      · rw [ih hMore hNext]

end Repetition

/- A class takes one character of its own. -/
theorem attempt_one_eq_some_iff
    {next : Way → Option Way}
    {kept? : Option (List Char)} :
    (one accepts).attempt next ⟨kept?, text⟩ = some found ↔
      ∃ c rest,
        text = c :: rest ∧ accepts c = true ∧
          next ⟨kept?, rest⟩ = some found := by
  cases text with
  | nil => simp [attempt]
  | cons c text =>
      constructor
      · intro h
        simp only [attempt, Option.ite_none_right_eq_some] at h
        exact ⟨c, text, rfl, h.1, h.2⟩
      · rintro ⟨d, rest, hText, hAccepts, hNext⟩
        cases hText
        simpa only [attempt, if_pos hAccepts] using hNext

/- An optional part is matched before it is passed over. -/
theorem attempt_optional
    {part : Pattern}
    {next : Way → Option Way}
    {w : Way} :
    (optional part).attempt next w =
      (part.attempt next w).or (next w) := by
  cases hPart : part.attempt next w <;> simp [attempt, hPart]

------------------------------------------------------------
-- Sequences of Classes
------------------------------------------------------------

section Sequence

variable {classes : List (Char → Bool)}
variable {p : Pattern}
variable {next : Way → Option Way}
variable {words rest : List Char}
variable {kept? : Option (List Char)}

/- A text of one character from each of the classes. -/
def Spells
    (classes : List (Char → Bool))
    (words : List Char) : Prop :=
  classes.Forall₂ (fun accepts c => accepts c = true) words

/- The first of the classes takes the first character. -/
theorem attempt_behind_cons
    (c : Char)
    (text : List Char) :
    (p.behind (accepts :: classes)).attempt next
        ⟨kept?, c :: text⟩ =
      if accepts c then
        (p.behind classes).attempt next ⟨kept?, text⟩
      else none :=
  rfl

/- Characters of the classes are passed over. -/
theorem attempt_behind
    (h : Spells classes words) :
    (p.behind classes).attempt next ⟨kept?, words ++ rest⟩ =
      p.attempt next ⟨kept?, rest⟩ := by
  unfold Spells at h
  induction h with
  | nil => rfl
  | cons hAccepts _ ih =>
      rw [List.cons_append, attempt_behind_cons, if_pos hAccepts]
      exact ih

/- A match behind classes begins with characters of them. -/
theorem exists_of_attempt_behind
    (h :
      (p.behind classes).attempt next ⟨kept?, text⟩ =
        some found) :
    ∃ words rest,
      text = words ++ rest ∧ Spells classes words := by
  induction classes generalizing text with
  | nil => exact ⟨[], text, rfl, .nil⟩
  | cons accepts classes ih =>
      cases text with
      | nil => cases h
      | cons c text =>
          rw [attempt_behind_cons] at h
          split at h
          · rename_i hAccepts
            rcases ih h with ⟨words, rest, rfl, hSpells⟩
            exact
              ⟨c :: words, rest, rfl, .cons hAccepts hSpells⟩
          · cases h

/- A match behind classes is one behind characters of them. -/
theorem attempt_behind_eq_some_iff :
    (p.behind classes).attempt next ⟨kept?, text⟩ =
        some found ↔
      ∃ words rest,
        text = words ++ rest ∧ Spells classes words ∧
          p.attempt next ⟨kept?, rest⟩ = some found := by
  constructor
  · intro h
    rcases exists_of_attempt_behind h with
      ⟨words, rest, rfl, hSpells⟩
    rw [attempt_behind hSpells] at h
    exact ⟨words, rest, rfl, hSpells, h⟩
  · rintro ⟨words, rest, rfl, hSpells, hFound⟩
    rw [attempt_behind hSpells]
    exact hFound

end Sequence

------------------------------------------------------------
-- Searches
------------------------------------------------------------

section Search

variable {p : Pattern}

/- A search fails when the pattern fails at every place. -/
theorem search?_eq_none_iff :
    p.search? text = none ↔
      ∀ before rest,
        text = before ++ rest →
          p.attempt some ⟨none, rest⟩ = none := by
  induction text with
  | nil =>
      constructor
      · intro h before rest hText
        rw [(List.append_eq_nil_iff.mp hText.symm).2]
        exact h
      · intro h
        exact h [] [] rfl
  | cons c text ih =>
      constructor
      · intro h before rest hText
        unfold search? at h
        split at h
        · cases h
        · rename_i hFails
          cases before with
          | nil =>
              rw [List.nil_append] at hText
              rw [← hText]
              exact hFails
          | cons d before =>
              rw [List.cons_append] at hText
              exact ih.mp h before rest (List.cons.inj hText).2
      · intro h
        have hLater :=
          ih.mpr fun before rest hText =>
            h (c :: before) rest (by rw [hText]; rfl)
        rw [search?, h [] (c :: text) rfl]
        exact hLater

/- A search passes over the places at which the pattern fails. -/
theorem search?_append
    {before : List Char}
    (hBefore :
      ∀ earlier later,
        before = earlier ++ later → later ≠ [] →
          p.attempt some ⟨none, later ++ text⟩ = none)
    (h : p.attempt some ⟨none, text⟩ = some found) :
    p.search? (before ++ text) = some found := by
  induction before with
  | nil =>
      cases text with
      | nil => exact h
      | cons c text =>
          rw [List.nil_append, search?, h]
  | cons c before ih =>
      rw [List.cons_append, search?]
      rw [← List.cons_append, hBefore [] (c :: before) rfl (by simp)]
      apply ih
      intro earlier later hSplit hLater
      exact hBefore (c :: earlier) later (by rw [hSplit]; rfl) hLater

end Search

end Pattern

end CommentLint
