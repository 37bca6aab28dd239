import CommentLint.Proofs.Json.Grammar
import Mathlib.Data.List.DropRight

/-
  Reading the tokens of JSON text.

  A spelled text is read up to its closing quote, and a spelled
  number up to where a number cannot go on.

  Key definitions include:
    * `Json.EndsNumber`

  Key results include:
    * `Json.readText_of_spellsText`
    * `Json.readNumber_of_spellsNumber`
-/

namespace CommentLint

namespace Json

------------------------------------------------------------
-- Texts
------------------------------------------------------------

/- A character is no surrogate. -/
theorem toNat_not_surrogate (x : Char) :
    isHighSurrogate x.toNat = false ∧
      isLowSurrogate x.toNat = false := by
  have hValid : x.toNat.isValidChar := x.valid
  simp only [isHighSurrogate, isLowSurrogate,
    Bool.and_eq_false_iff, decide_eq_false_iff_not]
  rcases hValid with hBefore | ⟨hAfter, _⟩ <;> omega

/- No single letter is read as a code unit. -/
theorem ne_u_of_unescape
    {a x : Char}
    (hLetter : unescape? a = some x) :
    a ≠ 'u' := by
  rintro rfl
  simp [unescape?] at hLetter

/- A spelled character is read. -/
theorem readTextOnto_of_spellsChar
    {x : Char}
    {s : List Char}
    (h : SpellsChar x s)
    (done rest : List Char) :
    readTextOnto done (s ++ rest) =
      readTextOnto (x :: done) rest := by
  cases h with
  | plain hQuote hBackslash hControl =>
      simp [readTextOnto, hBackslash, Nat.not_lt.mpr hControl]
  | letter hLetter =>
      have hU := ne_u_of_unescape hLetter
      simp [readTextOnto, hU, hLetter]
  | unit hUnit =>
      rcases toNat_not_surrogate x with ⟨hHigh, hLow⟩
      simp [readTextOnto, hUnit, hHigh, hLow, Char.ofNat_toNat]
  | @pair _ _ _ _ _ _ _ _ high low hHigh hLow hIsHigh hIsLow
      hPair =>
      have hChar : pairChar high low = x := by
        rw [pairChar, ← hPair, Char.ofNat_toNat]
      simp [readTextOnto, hHigh, hLow, hIsHigh, hIsLow, hChar]

/- Spelled characters are read up to the closing quote. -/
theorem readTextOnto_of_spellsChars
    {xs s : List Char}
    (h : SpellsChars xs s)
    (done rest : List Char) :
    readTextOnto done (s ++ '"' :: rest) =
      some (String.ofList (done.reverse ++ xs), rest) := by
  induction h generalizing done with
  | nil => simp [readTextOnto]
  | cons hChar _ ih =>
      rw [List.append_assoc, readTextOnto_of_spellsChar hChar, ih]
      simp

/- A spelled text is read. -/
theorem readText_of_spellsText
    {t : String}
    {s : List Char}
    (h : SpellsText t s)
    (rest : List Char) :
    ∃ s', s ++ rest = '"' :: s' ∧
      readText s' = some (t, rest) := by
  cases h with
  | @quoted xs s hChars =>
      refine ⟨s ++ '"' :: rest, by simp, ?_⟩
      simpa [readText] using
        readTextOnto_of_spellsChars hChars [] rest

------------------------------------------------------------
-- Spaces
------------------------------------------------------------

/- Blanks in front are skipped. -/
theorem skipSpace_append
    {b : List Char}
    (hBlank : Blank b)
    (s : List Char) :
    skipSpace (b ++ s) = skipSpace s :=
  List.dropWhile_append_of_pos hBlank

/- Nothing is skipped where no space stands in front. -/
theorem skipSpace_cons
    {c : Char}
    (hSpace : isSpace c = false)
    (s : List Char) :
    skipSpace (c :: s) = c :: s :=
  List.dropWhile_cons_of_neg (by simp [hSpace])

/- What is skipped once is not skipped again. -/
theorem skipSpace_skipSpace (s : List Char) :
    skipSpace (skipSpace s) = skipSpace s :=
  List.dropWhile_idempotent _ _

------------------------------------------------------------
-- Numbers
------------------------------------------------------------

/- A number does not go on with a text. -/
def EndsNumber (rest : List Char) : Prop :=
  ∀ c ∈ rest.head?,
    c.isDigit = false ∧ c ≠ '.' ∧ c ≠ 'e' ∧ c ≠ 'E'

/- A digit differs from what is no digit. -/
theorem ne_of_isDigit
    {c d : Char}
    (hDigit : c.isDigit = true)
    (hOther : d.isDigit = false) :
    c ≠ d := by
  rintro rfl
  rw [hDigit] at hOther
  cases hOther

/- Digits start with a digit. -/
theorem IsDigits.exists_cons
    {s : List Char}
    (h : IsDigits s) :
    ∃ d ds, s = d :: ds ∧ d.isDigit = true := by
  cases s with
  | nil => exact absurd rfl h.ne_nil
  | cons d ds => exact ⟨d, ds, rfl, h.isDigit d (by simp)⟩

/- Digits are split off a text that goes on without digits. -/
theorem spanDigits_append
    {digits rest : List Char}
    (hDigits : ∀ c ∈ digits, c.isDigit = true)
    (hRest : ∀ c ∈ rest.head?, c.isDigit = false) :
    spanDigits (digits ++ rest) = (digits, rest) := by
  have hStop :
      rest.takeWhile Char.isDigit = [] ∧
        rest.dropWhile Char.isDigit = rest := by
    cases rest with
    | nil => exact ⟨rfl, rfl⟩
    | cons c rest =>
        have hDigit := hRest c rfl
        simp [hDigit]
  rw [spanDigits, List.takeWhile_append_of_pos hDigits,
    List.dropWhile_append_of_pos hDigits, hStop.1, hStop.2,
    List.append_nil]

/- The digits behind a point are read. -/
theorem fraction_of_spellsFraction
    {digits s rest : List Char}
    (h : SpellsFraction digits s)
    (hDigit : ∀ c ∈ rest.head?, c.isDigit = false)
    (hPoint : ∀ c ∈ rest.head?, c ≠ '.') :
    fraction? (s ++ rest) = some (digits, rest) := by
  cases h with
  | none =>
      cases rest with
      | nil => rfl
      | cons c rest => simp [fraction?, hPoint c rfl]
  | point hDigits =>
      simp [fraction?, spanDigits_append hDigits.isDigit hDigit,
        hDigits.ne_nil]

/- An exponent is read. -/
theorem exponent_of_spellsExponent
    {exponent : Option Int}
    {s rest : List Char}
    (h : SpellsExponent exponent s)
    (hRest : EndsNumber rest) :
    exponent? (s ++ rest) =
      some (exponent.isSome, exponent.getD 0, rest) := by
  have hSpan :
      ∀ {digits : List Char},
        IsDigits digits →
          spanDigits (digits ++ rest) = (digits, rest) :=
    fun hDigits =>
      spanDigits_append hDigits.isDigit fun c hc => (hRest c hc).1
  cases h with
  | none =>
      cases rest with
      | nil => rfl
      | cons c rest =>
          rcases hRest c rfl with ⟨_, _, hSmall, hLarge⟩
          simp [exponent?, hSmall, hLarge]
  | @unsigned e digits hMark hDigits =>
      have hRead := hSpan hDigits
      rcases hDigits.exists_cons with ⟨d, ds, rfl, hDigit⟩
      have hMinus : d ≠ '-' := ne_of_isDigit hDigit rfl
      have hPlus : d ≠ '+' := ne_of_isDigit hDigit rfl
      rw [List.cons_append] at hRead
      simp [exponent?, hMark, hMinus, hPlus, hRead]
  | plus hMark hDigits =>
      simp [exponent?, hMark, hSpan hDigits, hDigits.ne_nil]
  | minus hMark hDigits =>
      simp [exponent?, hMark, hSpan hDigits, hDigits.ne_nil]

/- What follows the digits behind a point is no digit. -/
theorem head_of_spellsExponent
    {exponent : Option Int}
    {s rest : List Char}
    (h : SpellsExponent exponent s)
    (hRest : EndsNumber rest) :
    ∀ c ∈ (s ++ rest).head?, c.isDigit = false ∧ c ≠ '.' := by
  have hExponentMark :
      ∀ {e : Char},
        e = 'e' ∨ e = 'E' →
          ∀ c ∈ some e, c.isDigit = false ∧ c ≠ '.' := by
    rintro e (rfl | rfl) c hc
    all_goals
      cases hc
      decide
  cases h with
  | none =>
      intro c hc
      exact ⟨(hRest c hc).1, (hRest c hc).2.1⟩
  | unsigned hMark _ => exact hExponentMark hMark
  | plus hMark _ => exact hExponentMark hMark
  | minus hMark _ => exact hExponentMark hMark

/- What follows the first digits is no digit. -/
theorem head_of_spellsFraction
    {digits s rest : List Char}
    (h : SpellsFraction digits s)
    (hRest : ∀ c ∈ rest.head?, c.isDigit = false) :
    ∀ c ∈ (s ++ rest).head?, c.isDigit = false := by
  cases h with
  | none => exact hRest
  | point _ =>
      rintro c ⟨⟩
      rfl

/- A spelled number is read. -/
theorem readNumber_of_spellsNumber
    {v : Value}
    {s rest : List Char}
    (h : SpellsNumber v s)
    (hRest : EndsNumber rest) :
    readNumber (s ++ rest) = some (v, rest) := by
  cases h with
  | @parts whole fraction f e exponent negative hWhole hFraction
      hExponent =>
      have hAfter := head_of_spellsExponent hExponent hRest
      have hDigit : ∀ c ∈ (e ++ rest).head?, c.isDigit = false :=
        fun c hc => (hAfter c hc).1
      have hFractionRead :=
        fraction_of_spellsFraction hFraction hDigit
          fun c hc => (hAfter c hc).2
      have hExponentRead :=
        exponent_of_spellsExponent hExponent hRest
      have hWholeRead :=
        spanDigits_append hWhole.isDigit
          (head_of_spellsFraction hFraction hDigit)
      rcases hWhole.exists_cons with ⟨d, ds, rfl, hFirst⟩
      have hZero : d = '0' → ds = [] := by
        rintro rfl
        exact List.tail_eq_of_cons_eq (hWhole.eq_zero rfl)
      have hMinus : d ≠ '-' := ne_of_isDigit hFirst rfl
      rw [List.cons_append] at hWholeRead
      by_cases hInteger : fraction = [] ∧ exponent = none
      all_goals
        cases negative <;>
          simpa [readNumber, numberValue, minus, hMinus,
            hWholeRead, hFractionRead, hExponentRead, hInteger]
            using hZero

end Json

end CommentLint
