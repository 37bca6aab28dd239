import CommentLint.Proofs.Rule.GluedComments
import CommentLint.Proofs.Text.Backtracking

/-
  The spacing rule as a pattern.

  The rule counts the slashes that lead a comment and looks at
  the character behind all of them.  A pattern for it takes two
  slashes, a third one if it can, and a character that glues.
  The two agree: that character is no slash, so that giving a
  third slash back never helps.

  Key definitions include:
    * `Glued.glues`
    * `Glued.pattern`

  Key results include:
    * `Glued.attempt_pattern_eq_some_iff`
    * `Glued.find?_eq_some_iff`
    * `Glued.find?_agrees_with_pattern`
-/

namespace CommentLint

namespace Glued

variable {c : Char}
variable {text rest : List Char}
variable {n : Nat}

------------------------------------------------------------
-- The Pattern
------------------------------------------------------------

/- The class of the slash. -/
def isSlash (c : Char) : Bool :=
  c == '/'

/-
  The class of what glues: no slash, and no whitespace other
  than U+001C to U+001F.
-/
def glues (c : Char) : Bool :=
  c != '/' &&
    (!isBlank c || (0x1C ≤ c.toNat && c.toNat ≤ 0x1F))

/- A third slash if there is one, and a character that glues. -/
def ending : Pattern :=
  .andThen (.optional (.one isSlash)) (.one glues)

/- Two or three slashes and a character that glues. -/
def pattern : Pattern :=
  .behind [isSlash, isSlash] ending

/- Only the slash is of its class. -/
theorem isSlash_iff :
    isSlash c = true ↔ c = '/' := by
  simp [isSlash]

/- What glues is neither a slash nor spacing. -/
theorem glues_iff :
    glues c = true ↔ c ≠ '/' ∧ isSpacing c = false := by
  unfold glues isSpacing isInformationSeparator
  cases isBlank c <;> simp

/- The ending takes one slash or none. -/
theorem attempt_ending_eq_some_iff
    {found : Pattern.Way} :
    ending.attempt some ⟨none, text⟩ = some found ↔
      ∃ n c rest,
        n ≤ 1 ∧ glues c = true ∧
          text = List.replicate n '/' ++ c :: rest ∧
          found = ⟨none, rest⟩ := by
  have hEnding :
      ending.attempt some ⟨none, text⟩ =
        ((Pattern.one isSlash).attempt
            ((Pattern.one glues).attempt some)
            ⟨none, text⟩).or
          ((Pattern.one glues).attempt some ⟨none, text⟩) :=
    Pattern.attempt_optional
  rw [hEnding, Option.or_eq_some_iff]
  simp only [Pattern.attempt_one_eq_some_iff, isSlash_iff,
    Option.some.injEq]
  constructor
  · rintro (hThird | ⟨_, c, rest, rfl, hGlues, rfl⟩)
    · rcases hThird with
        ⟨_, _, rfl, rfl, c, rest, rfl, hGlues, rfl⟩
      exact ⟨1, c, rest, Nat.le_refl 1, hGlues, rfl, rfl⟩
    · exact ⟨0, c, rest, Nat.zero_le 1, hGlues, rfl, rfl⟩
  · rintro ⟨n, c, rest, hn, hGlues, rfl, rfl⟩
    cases n with
    | zero =>
        -- What glues is no slash, so that no third one is taken.
        refine Or.inr ⟨?_, c, rest, rfl, hGlues, rfl⟩
        rw [Option.eq_none_iff_forall_ne_some]
        intro w hThird
        rcases Pattern.attempt_one_eq_some_iff.mp hThird with
          ⟨_, _, hText, hSlash, _⟩
        cases hText
        exact (glues_iff.mp hGlues).1 (isSlash_iff.mp hSlash)
    | succ n =>
        have hOne : n = 0 := by omega
        subst hOne
        exact
          Or.inl
            ⟨'/', c :: rest, rfl, rfl, c, rest, rfl, hGlues, rfl⟩

/- Two slashes are what two characters of the class are. -/
theorem spells_slashes_iff
    {words : List Char} :
    Pattern.Spells [isSlash, isSlash] words ↔
      words = ['/', '/'] := by
  unfold Pattern.Spells
  constructor
  · rintro (_ | ⟨hFirst, _ | ⟨hSecond, _ | _⟩⟩)
    rw [isSlash_iff.mp hFirst, isSlash_iff.mp hSecond]
  · rintro rfl
    exact .cons rfl (.cons rfl .nil)

/- The pattern takes two slashes or three. -/
theorem attempt_pattern_eq_some_iff
    {found : Pattern.Way} :
    pattern.attempt some ⟨none, text⟩ = some found ↔
      ∃ n c rest,
        (n = 2 ∨ n = 3) ∧ glues c = true ∧
          text = List.replicate n '/' ++ c :: rest ∧
          found = ⟨none, rest⟩ := by
  unfold pattern
  rw [Pattern.attempt_behind_eq_some_iff]
  simp only [spells_slashes_iff, attempt_ending_eq_some_iff]
  constructor
  · rintro
      ⟨_, _, rfl, rfl, n, c, rest, hn, hGlues, rfl, rfl⟩
    exact ⟨n + 2, c, rest, by omega, hGlues, rfl, rfl⟩
  · rintro ⟨n, c, rest, hn, hGlues, rfl, rfl⟩
    refine
      ⟨['/', '/'], List.replicate (n - 2) '/' ++ c :: rest, ?_,
        rfl, n - 2, c, rest, by omega, hGlues, rfl, rfl⟩
    rcases hn with rfl | rfl <;> rfl

------------------------------------------------------------
-- The Count of Slashes
------------------------------------------------------------

/- Slashes are counted up to a character that is none. -/
theorem slashes_replicate_append
    (n : Nat)
    (hSlash : c ≠ '/')
    (rest : List Char) :
    slashes (List.replicate n '/' ++ c :: rest) = n := by
  unfold slashes
  rw [List.takeWhile_append_of_pos (by simp),
    List.takeWhile_cons_of_neg (by simpa using hSlash)]
  simp

/- The rule finds what glues behind two slashes or three. -/
theorem find?_replicate_append
    (hCount : n = 2 ∨ n = 3)
    (hGlues : glues c = true)
    (rest : List Char) :
    find? (List.replicate n '/' ++ c :: rest) =
      some ⟨0, n + c.utf8Size, c.utf8Size⟩ := by
  rcases glues_iff.mp hGlues with ⟨hSlash, hSpacing⟩
  have hDrop :
      (List.replicate n '/' ++ c :: rest).drop n = c :: rest :=
    List.drop_left' List.length_replicate
  unfold find?
  simp only [slashes_replicate_append n hSlash, hDrop]
  rw [if_neg (by omega), if_neg (by simp [hSpacing])]

/- It finds nothing else. -/
theorem find?_eq_some_iff
    {g : Glued} :
    find? text = some g ↔
      ∃ n c rest,
        (n = 2 ∨ n = 3) ∧ glues c = true ∧
          text = List.replicate n '/' ++ c :: rest ∧
          g = ⟨0, n + c.utf8Size, c.utf8Size⟩ := by
  constructor
  · intro h
    rcases of_find?_eq_some h with
      ⟨c, rest, hText, hLow, hHigh, hSlash, hSpacing⟩
    have hGlues := glues_iff.mpr ⟨hSlash, hSpacing⟩
    have hCount : g.offset = 2 ∨ g.offset = 3 := by
      omega
    have hFound := find?_replicate_append hCount hGlues rest
    rw [← hText, h] at hFound
    exact
      ⟨g.offset, c, rest, hCount, hGlues, hText,
        Option.some.inj hFound⟩
  · rintro ⟨n, c, rest, hCount, hGlues, rfl, rfl⟩
    exact find?_replicate_append hCount hGlues rest

------------------------------------------------------------
-- Agreement
------------------------------------------------------------

/- The bytes from a glued character to the end of a match. -/
theorem take_drop_encode
    (n : Nat)
    (c : Char)
    (rest : List Char) :
    ((Utf8.encode (List.replicate n '/' ++ c :: rest)).drop
        n).take c.utf8Size =
      String.utf8EncodeChar c := by
  rw [Utf8.encode_append, Utf8.encode_cons,
    List.drop_left' (CommentSpacing.length_encode_slashes n)]
  exact List.take_left' (String.length_utf8EncodeChar c)

/-
  The rule finds something in a text exactly where the pattern
  matches at its start.  What it finds starts there, leads
  over all the slashes to the character that the pattern took
  last, and ends with the bytes of that character.
-/
theorem find?_agrees_with_pattern
    (text : List Char) :
    ((find? text).isSome = true ↔
      (pattern.attempt some ⟨none, text⟩).isSome = true) ∧
    ∀ g, find? text = some g →
      ∃ c rest,
        pattern.attempt some ⟨none, text⟩ =
            some ⟨none, rest⟩ ∧
          text = List.replicate g.offset '/' ++ c :: rest ∧
          glues c = true ∧
          g.start = 0 ∧ g.offset = slashes text ∧
          g.offset ≤ g.stop ∧
          g.stop ≤ (Utf8.encode text).length ∧
          ((Utf8.encode text).drop g.offset).take
              (g.stop - g.offset) =
            String.utf8EncodeChar c := by
  refine ⟨?_, ?_⟩
  · simp only [Option.isSome_iff_exists, find?_eq_some_iff,
      attempt_pattern_eq_some_iff]
    constructor
    · rintro ⟨_, n, c, rest, hCount, hGlues, hText, _⟩
      exact ⟨_, n, c, rest, hCount, hGlues, hText, rfl⟩
    · rintro ⟨_, n, c, rest, hCount, hGlues, hText, _⟩
      exact ⟨_, n, c, rest, hCount, hGlues, hText, rfl⟩
  · intro g hFound
    rcases find?_eq_some_iff.mp hFound with
      ⟨n, c, rest, hCount, hGlues, rfl, rfl⟩
    have hMatch :=
      attempt_pattern_eq_some_iff.mpr
        ⟨n, c, rest, hCount, hGlues, rfl, rfl⟩
    have hOffset :
        Glued.offset ⟨0, n + c.utf8Size, c.utf8Size⟩ = n :=
      Nat.add_sub_cancel n c.utf8Size
    have hSlashes :=
      slashes_replicate_append n (glues_iff.mp hGlues).1 rest
    rw [hOffset, hSlashes]
    refine
      ⟨c, rest, hMatch, rfl, hGlues, rfl, rfl, by simp, ?_, ?_⟩
    · simp [CommentSpacing.length_encode_slashes,
        String.length_utf8EncodeChar]
    · rw [Nat.add_sub_cancel_left, take_drop_encode]

/- Three slashes glued to a character of four bytes. -/
theorem find?_agrees_with_pattern_wide :
    let text := ['/', '/', '/', '😀', 'x']
    find? text = some ⟨0, 7, 4⟩ ∧
      pattern.attempt some ⟨none, text⟩ =
        some ⟨none, ['x']⟩ ∧
      ((Utf8.encode text).drop 3).take 4 =
        [0xF0, 0x9F, 0x98, 0x80] := by
  intro text
  have hFound : find? text = some ⟨0, 7, 4⟩ := by
    decide
  rcases (find?_agrees_with_pattern text).2 _ hFound with
    ⟨c, rest, hMatch, hText, _, _, _, _, _, hBytes⟩
  simp only [text] at hText
  cases hText
  exact ⟨hFound, hMatch, hBytes.trans (by decide)⟩

end Glued

end CommentLint
