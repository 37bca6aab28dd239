import CommentLint.Proofs.Scan.LineDirectives
import CommentLint.Proofs.Text.Backtracking
import Mathlib.Data.List.TakeWhile
import Mathlib.Data.Nat.Find

/-
  What the text of a directive asks for.

  The pattern of a directive tries its margin and its tail in
  several ways.  What comes out is a scan from left to right:
  the words of the directive where they stand first, then all
  the characters that may follow them, and in these the names
  between the gaps.

  Key definitions include:
    * `Suppression.FirstKeyword`
    * `Suppression.IsName`
    * `Suppression.NamesNone`
    * `Suppression.Asks`
    * `Suppression.IsReadFrom`

  Key results include:
    * `Suppression.mem_splitOnP_iff`
    * `Suppression.asks_of_attempt`
    * `Suppression.ofLine?_isReadFrom`
    * `Suppression.ofData_reads_lines`
-/

namespace CommentLint

namespace Suppression

variable {text run tail : List Char}
variable {c : Char}

------------------------------------------------------------
-- Pieces between Separators
------------------------------------------------------------

/-
  A stretch of a text that ends, on either side, where the
  text does or at a separator, and has no separator in it.
-/
def IsPiece
    (separates : Char → Bool)
    (text piece : List Char) : Prop :=
  (∀ c ∈ piece, separates c = false) ∧
    ∃ before after,
      text = before ++ (piece ++ after) ∧
        (∀ c, before.getLast? = some c → separates c = true) ∧
          ∀ c, after.head? = some c → separates c = true

section Pieces

variable {separates : Char → Bool}
variable {piece : List Char}

/- A text has a first separator or none. -/
theorem exists_first_separator
    (separates : Char → Bool)
    (text : List Char) :
    (∀ c ∈ text, separates c = false) ∨
      ∃ front c rest,
        text = front ++ c :: rest ∧ separates c = true ∧
          ∀ d ∈ front, separates d = false := by
  induction text with
  | nil => exact Or.inl (by simp)
  | cons c text ih =>
      cases hc : separates c with
      | true => exact Or.inr ⟨[], c, text, rfl, hc, by simp⟩
      | false =>
          rcases ih with hNone | ⟨front, d, rest, rfl, hd, hFront⟩
          · exact Or.inl (List.forall_mem_cons.mpr ⟨hc, hNone⟩)
          · exact
              Or.inr
                ⟨c :: front, d, rest, rfl, hd,
                  List.forall_mem_cons.mpr ⟨hc, hFront⟩⟩

/- A piece behind a separator is a piece of the whole text. -/
theorem IsPiece.behind
    (hSeparates : separates c = true)
    (h : IsPiece separates text piece)
    (front : List Char) :
    IsPiece separates (front ++ c :: text) piece := by
  rcases h with ⟨hPiece, before, after, rfl, hBefore, hAfter⟩
  refine
    ⟨hPiece, front ++ c :: before, after, by simp, ?_, hAfter⟩
  intro d hLast
  cases before with
  | nil =>
      rw [List.getLast?_concat] at hLast
      cases hLast
      exact hSeparates
  | cons e before =>
      rw [List.getLast?_append_cons,
        List.getLast?_cons_cons] at hLast
      exact hBefore d hLast

/- What splitting gives is a piece of the text. -/
theorem isPiece_of_mem_splitOnP
    (h : piece ∈ text.splitOnP separates) :
    IsPiece separates text piece := by
  induction hLength : text.length using Nat.strongRecOn
    generalizing text with
  | ind length ih =>
      rcases exists_first_separator separates text with
        hNone | ⟨front, c, rest, rfl, hc, hFront⟩
      · rw [List.splitOnP_eq_singleton hNone,
          List.mem_singleton] at h
        subst h
        exact ⟨hNone, [], [], by simp⟩
      · rw [List.splitOnP_append_cons_of_forall_mem hFront c hc,
          List.mem_cons] at h
        rcases h with rfl | h
        · exact ⟨hFront, [], c :: rest, rfl, by simp, by simpa⟩
        · have hShorter : rest.length < length := by
            rw [← hLength, List.length_append, List.length_cons]
            omega
          exact (ih _ hShorter h rfl).behind hc front

/- A piece that starts a text is what splitting gives first. -/
theorem mem_splitOnP_append
    (hPiece : ∀ c ∈ piece, separates c = false)
    (hTail : ∀ c, tail.head? = some c → separates c = true) :
    piece ∈ (piece ++ tail).splitOnP separates := by
  cases tail with
  | nil =>
      rw [List.append_nil, List.splitOnP_eq_singleton hPiece]
      exact List.mem_singleton_self piece
  | cons c tail =>
      rw [List.splitOnP_append_cons_of_forall_mem hPiece c
        (hTail c rfl)]
      exact List.mem_cons_self

/- Pieces depend on which characters of the text separate. -/
theorem IsPiece.congr
    {divides : Char → Bool}
    (hSame : ∀ c ∈ text, separates c = divides c)
    (h : IsPiece separates text piece) :
    IsPiece divides text piece := by
  rcases h with ⟨hPiece, before, after, rfl, hBefore, hAfter⟩
  refine ⟨?_, before, after, rfl, ?_, ?_⟩
  · intro c hMem
    rw [← hSame c (by simp [hMem])]
    exact hPiece c hMem
  · intro c hLast
    have hMem := List.mem_of_getLast? hLast
    rw [← hSame c (by simp [hMem])]
    exact hBefore c hLast
  · intro c hHead
    have hMem := List.mem_of_head? hHead
    rw [← hSame c (by simp [hMem])]
    exact hAfter c hHead

/- Splitting gives the pieces of a text, and nothing else. -/
theorem mem_splitOnP_iff :
    piece ∈ text.splitOnP separates ↔
      IsPiece separates text piece := by
  constructor
  · exact isPiece_of_mem_splitOnP
  · rintro ⟨hPiece, before, after, rfl, hBefore, hAfter⟩
    have hFirst := mem_splitOnP_append hPiece hAfter
    rcases List.eq_nil_or_concat before with
      rfl | ⟨front, c, rfl⟩
    · exact hFirst
    · have hSeparates : separates c = true := by
        apply hBefore
        rw [List.concat_eq_append, List.getLast?_concat]
      rw [List.concat_eq_append, List.append_assoc,
        List.singleton_append,
        List.splitOnP_append_cons _ _ hSeparates]
      exact List.mem_append_right _ hFirst

end Pieces

------------------------------------------------------------
-- Names in a Tail
------------------------------------------------------------

/- A longest run of characters between gaps. -/
def IsName (text name : List Char) : Prop :=
  name ≠ [] ∧ IsPiece isGap text name

/- Letters and digits have code points from 48 to 122. -/
theorem toNat_of_isAlphanum
    (h : c.isAlphanum = true) :
    48 ≤ c.toNat ∧ c.toNat ≤ 122 := by
  have hKinds :
      (c.isUpper = true ∨ c.isLower = true) ∨
        c.isDigit = true := by
    rw [← Bool.or_eq_true, ← Bool.or_eq_true]
    exact h
  rcases hKinds with (hUpper | hLower) | hDigit
  · have hRange : 'A'.val ≤ c.val ∧ c.val ≤ 'Z'.val :=
      of_decide_eq_true hUpper
    have hLow : 65 ≤ c.toNat :=
      UInt32.le_iff_toNat_le.mp hRange.1
    have hHigh : c.toNat ≤ 90 :=
      UInt32.le_iff_toNat_le.mp hRange.2
    omega
  · rcases Bool.and_eq_true_iff.mp hLower with ⟨hFrom, hTo⟩
    have hLow : 97 ≤ c.toNat :=
      UInt32.le_iff_toNat_le.mp (of_decide_eq_true hFrom)
    have hHigh : c.toNat ≤ 122 :=
      UInt32.le_iff_toNat_le.mp (of_decide_eq_true hTo)
    omega
  · have hRange : 48 ≤ c.toNat ∧ c.toNat ≤ 57 :=
      Char.isDigit_iff_toNat.mp hDigit
    omega

/- The characters of names are neither whitespace nor commas. -/
theorem isSeparator_of_isNameChar
    (h : isNameChar c = true) :
    isSeparator c = false := by
  simp only [isNameChar, Bool.or_eq_true, beq_iff_eq] at h
  rcases h with
    (((((hAlphanum | rfl) | rfl) | rfl) | rfl) | rfl) | rfl
  · have hRange := toNat_of_isAlphanum hAlphanum
    have hComma : c ≠ ',' := by
      rintro rfl
      exact absurd hRange (by decide)
    simp only [isSeparator, isBlank, Bool.or_eq_false_iff,
      Bool.and_eq_false_iff, decide_eq_false_iff_not,
      beq_eq_false_iff_ne]
    refine ⟨?_, hComma⟩
    omega
  all_goals rfl

/- Gaps are separators. -/
theorem isSeparator_of_isGap
    (h : isGap c = true) :
    isSeparator c = true := by
  simp only [isGap, isMargin, Bool.or_eq_true, beq_iff_eq] at h
  rcases h with (rfl | rfl) | rfl
  all_goals rfl

/- Among the characters of a tail, the separators are the gaps. -/
theorem isSeparator_eq_isGap
    (h : isTail c = true) :
    isSeparator c = isGap c := by
  cases hGap : isGap c with
  | true => exact isSeparator_of_isGap hGap
  | false =>
      have hName : isNameChar c = true := by
        simpa [isTail, hGap] using h
      exact isSeparator_of_isNameChar hName

/- A margin can be part of a tail. -/
theorem isTail_of_isMargin
    (h : isMargin c = true) :
    isTail c = true := by
  simp [isTail, isGap, h]

/- A separator in front is part of no name. -/
theorem names_cons_of_isSeparator
    (h : isSeparator c = true)
    (tail : List Char) :
    names (c :: tail) = names tail := by
  have hSplit := List.splitOnP_append_cons [] tail h
  rw [List.nil_append, List.splitOnP_nil] at hSplit
  simp [names, hSplit]

/- A margin in front is part of no name. -/
theorem names_append_of_isMargin
    {margin : List Char}
    (h : ∀ c ∈ margin, isMargin c = true)
    (tail : List Char) :
    names (margin ++ tail) = names tail := by
  induction margin with
  | nil => rfl
  | cons c margin ih =>
      rcases List.forall_mem_cons.mp h with ⟨hFirst, hOthers⟩
      have hGap : isGap c = true := by simp [isGap, hFirst]
      rw [List.cons_append,
        names_cons_of_isSeparator (isSeparator_of_isGap hGap),
        ih hOthers]

/- There are no names where there are separators alone. -/
theorem names_eq_nil_iff :
    names tail = [] ↔ ∀ c ∈ tail, isSeparator c = true := by
  induction tail with
  | nil => simp [names]
  | cons c tail ih =>
      cases hSeparator : isSeparator c with
      | true =>
          rw [names_cons_of_isSeparator hSeparator, ih]
          simp [hSeparator]
      | false =>
          -- The character belongs to the first of the pieces.
          rcases List.exists_cons_of_ne_nil
              (List.splitOnP_ne_nil isSeparator tail) with
            ⟨piece, pieces, hSplit⟩
          simp [names, List.splitOnP_cons_eq_if_modifyHead,
            hSeparator, hSplit]

/-
  The rule names in a tail are its longest runs of characters
  between gaps, in small letters.
-/
theorem mem_names_iff
    {id : String}
    (h : ∀ c ∈ tail, isTail c = true) :
    id ∈ names tail ↔
      ∃ name,
        IsName tail name ∧
          id = String.ofList (Casing.lower name) := by
  have hSame :
      ∀ c ∈ tail, isSeparator c = isGap c :=
    fun c hMem => isSeparator_eq_isGap (h c hMem)
  have hPiece :
      ∀ name,
        IsPiece isSeparator tail name ↔ IsPiece isGap tail name :=
    fun name =>
      ⟨IsPiece.congr hSame,
        IsPiece.congr fun c hMem => (hSame c hMem).symm⟩
  constructor
  · intro hMem
    rcases List.mem_map.mp hMem with ⟨name, hName, rfl⟩
    rcases List.mem_filter.mp hName with ⟨hSplit, hNonempty⟩
    exact
      ⟨name,
        ⟨by simpa using hNonempty,
          (hPiece name).mp (mem_splitOnP_iff.mp hSplit)⟩,
        rfl⟩
  · rintro ⟨name, ⟨hNonempty, hName⟩, rfl⟩
    have hSplit := mem_splitOnP_iff.mpr ((hPiece name).mpr hName)
    exact
      List.mem_map_of_mem
        (List.mem_filter.mpr ⟨hSplit, by simpa using hNonempty⟩)

------------------------------------------------------------
-- What a Tail Asks For
------------------------------------------------------------

/-
  A run behind the words of a directive that names no rule: it
  is empty, it does not begin with a space or a tab, or it has
  nothing but gaps.
-/
def NamesNone (run : List Char) : Prop :=
  run = [] ∨
    (∃ c, run.head? = some c ∧ isMargin c = false) ∨
      ∀ c ∈ run, isGap c = true

/-
  What a run asks to suppress: everything, or the rules that
  it names.
-/
def Asks (run : List Char) : Suppression → Prop
  | .all => NamesNone run
  | .rules ids =>
      ¬ NamesNone run ∧ ids ≠ [] ∧
        ∀ id, id ∈ ids ↔
          ∃ name,
            IsName run name ∧
              id = String.ofList (Casing.lower name)

/- A tail without names asks to suppress everything. -/
theorem ofTail?_of_names_eq_nil
    (h : names tail = []) :
    ofTail? (some tail) = .all := by
  unfold ofTail?
  dsimp only
  rw [h]

/- A tail with names asks to suppress what it names. -/
theorem ofTail?_of_names_ne_nil
    (h : names tail ≠ []) :
    ofTail? (some tail) = .rules (names tail).eraseDups := by
  unfold ofTail?
  dsimp only
  split
  · rename_i hNil
    exact absurd hNil h
  · rfl

/- A margin in front changes nothing of what a tail asks for. -/
theorem ofTail?_append_of_isMargin
    {margin : List Char}
    (h : ∀ c ∈ margin, isMargin c = true)
    (tail : List Char) :
    ofTail? (some (margin ++ tail)) = ofTail? (some tail) := by
  unfold ofTail?
  dsimp only
  rw [names_append_of_isMargin h]

/- A run that begins with a margin asks for the names in it. -/
theorem asks_ofTail?
    (hRun : ∀ c ∈ run, isTail c = true)
    (hHead : ∃ c, run.head? = some c ∧ isMargin c = true) :
    Asks run (ofTail? (some run)) := by
  have hNone : NamesNone run ↔ names run = [] := by
    rw [names_eq_nil_iff]
    constructor
    · rintro (rfl | ⟨c, hFirst, hOther⟩ | hGaps)
      · simp
      · rcases hHead with ⟨d, hMargin, hIs⟩
        rw [hMargin] at hFirst
        cases hFirst
        rw [hIs] at hOther
        cases hOther
      · exact fun c hMem => isSeparator_of_isGap (hGaps c hMem)
    · intro hSeparators
      refine Or.inr (Or.inr fun c hMem => ?_)
      rw [← isSeparator_eq_isGap (hRun c hMem)]
      exact hSeparators c hMem
  by_cases hNames : names run = []
  · rw [ofTail?_of_names_eq_nil hNames]
    exact hNone.mpr hNames
  · rw [ofTail?_of_names_ne_nil hNames]
    refine ⟨fun h => hNames (hNone.mp h), ?_, ?_⟩
    · intro hNil
      rcases List.exists_mem_of_ne_nil _ hNames with ⟨id, hMem⟩
      have hKept := List.mem_eraseDups.mpr hMem
      rw [hNil] at hKept
      cases hKept
    · intro id
      rw [List.mem_eraseDups, mem_names_iff hRun]

------------------------------------------------------------
-- Ways to Match
------------------------------------------------------------

/- The pattern of a tail takes the longest run of its characters. -/
theorem attempt_tail
    {rest : List Char}
    (hRun : text.takeWhile isTail = run)
    (hNonempty : run ≠ [])
    (hRest : text.dropWhile isTail = rest) :
    (Pattern.kept (.many isTail)).attempt some ⟨none, text⟩ =
      some ⟨some run, rest⟩ := by
  have hText : run ++ rest = text := by
    rw [← hRun, ← hRest, List.takeWhile_append_dropWhile]
  have hTaken : text.take (text.length - rest.length) = run := by
    simp [← hText]
  apply Pattern.takeMany_eq_of_dropWhile
  · rw [hRun]
    exact hNonempty
  · rw [hRest]
    change some (Pattern.Way.mk (some (text.take _)) rest) = _
    rw [hTaken]

/- The pattern of a tail fails where there is none. -/
theorem attempt_tail_eq_none
    (hNone : text.takeWhile isTail = []) :
    (Pattern.kept (.many isTail)).attempt some ⟨none, text⟩ =
      none := by
  apply Pattern.takeMany_eq_none_iff.mpr
  rintro taken rest rfl hTaken hTail
  rw [List.takeWhile_append_of_pos hTail] at hNone
  exact absurd (List.append_eq_nil_iff.mp hNone).1 hTaken

/- Where no margin and tail match, the run names no rule. -/
theorem namesNone_of_takeMany_eq_none
    (h :
      Pattern.takeMany isMargin
          (fun rest =>
            (Pattern.kept (.many isTail)).attempt some
              ⟨none, rest⟩)
          text =
        none) :
    NamesNone (text.takeWhile isTail) := by
  have hText :=
    List.takeWhile_append_dropWhile (p := isMargin) (l := text)
  have hMargin :
      ∀ c ∈ text.takeWhile isMargin, isMargin c = true :=
    fun c hMem => List.mem_takeWhile_imp hMem
  by_cases hNonempty : text.takeWhile isMargin = []
  · cases text with
    | nil => exact Or.inl rfl
    | cons c text =>
        have hOther : isMargin c = false := by
          by_contra hIs
          rw [List.takeWhile_cons_of_pos (by simpa using hIs)]
            at hNonempty
          cases hNonempty
        by_cases hTail : isTail c = true
        · rw [List.takeWhile_cons_of_pos hTail]
          exact Or.inr (Or.inl ⟨c, rfl, hOther⟩)
        · rw [List.takeWhile_cons_of_neg hTail]
          exact Or.inl rfl
  · -- Behind the whole margin there is no tail.
    have hFails :=
      Pattern.takeMany_eq_none_iff.mp h _ _ hText.symm hNonempty
        hMargin
    have hNone : (text.dropWhile isMargin).takeWhile isTail = [] := by
      by_contra hSome
      rw [attempt_tail rfl hSome rfl] at hFails
      cases hFails
    have hRun : text.takeWhile isTail = text.takeWhile isMargin := by
      conv_lhs => rw [← hText]
      rw [List.takeWhile_append_of_pos fun c hMem =>
          isTail_of_isMargin (hMargin c hMem),
        hNone, List.append_nil]
    refine Or.inr (Or.inr fun c hMem => ?_)
    rw [hRun] at hMem
    simp [isGap, hMargin c hMem]

/-
  Whatever way the margin and the tail match, the tail has the
  names of the whole run of characters behind the words.
-/
theorem asks_of_attempt
    (text : List Char) :
    ∃ found,
      ruleNames.attempt some ⟨none, text⟩ = some found ∧
        Asks (text.takeWhile isTail) (ofTail? found.kept?) := by
  let tryTail (rest : List Char) : Option Pattern.Way :=
    (Pattern.kept (.many isTail)).attempt some ⟨none, rest⟩
  have hAttempt :
      ruleNames.attempt some ⟨none, text⟩ =
        (Pattern.takeMany isMargin tryTail text).or
          (some ⟨none, text⟩) :=
    Pattern.attempt_optional
  cases hFound : Pattern.takeMany isMargin tryTail text with
  | some found =>
      rw [hFound] at hAttempt
      refine ⟨found, hAttempt, ?_⟩
      rcases Pattern.exists_of_takeMany hFound with
        ⟨margin, rest, rfl, hNonempty, hMargin, hTail⟩
      have hRun :
          (margin ++ rest).takeWhile isTail =
            margin ++ rest.takeWhile isTail :=
        List.takeWhile_append_of_pos fun c hMem =>
          isTail_of_isMargin (hMargin c hMem)
      have hKept :
          found.kept? = some (rest.takeWhile isTail) := by
        by_cases hNone : rest.takeWhile isTail = []
        · rw [show tryTail rest = none from
            attempt_tail_eq_none hNone] at hTail
          cases hTail
        · rw [show tryTail rest = _ from
            attempt_tail rfl hNone rfl] at hTail
          cases hTail
          rfl
      have hAsks :
          Asks ((margin ++ rest).takeWhile isTail)
            (ofTail?
              (some ((margin ++ rest).takeWhile isTail))) := by
        apply asks_ofTail?
        · exact fun c hMem => List.mem_takeWhile_imp hMem
        · rcases List.exists_cons_of_ne_nil hNonempty with
            ⟨c, others, rfl⟩
          rw [hRun]
          exact ⟨c, rfl, hMargin c List.mem_cons_self⟩
      rw [hKept, ← ofTail?_append_of_isMargin hMargin, ← hRun]
      exact hAsks
  | none =>
      rw [hFound] at hAttempt
      exact ⟨_, hAttempt, namesNone_of_takeMany_eq_none hFound⟩

------------------------------------------------------------
-- Directives of a Line
------------------------------------------------------------

/- A text that spells the words of a directive, in any case. -/
def IsKeyword (words : List Char) : Prop :=
  keyword.Forall₂
    (fun letter c => matchesLetter letter c = true) words

/- A line in which the words of a directive stand. -/
def HasKeyword (line : List Char) : Prop :=
  ∃ before words after,
    line = before ++ (words ++ after) ∧ IsKeyword words

/-
  A line cut up at the words of a directive, where they stand
  for the first time.
-/
structure FirstKeyword
    (line before words after : List Char) : Prop where
  split : line = before ++ (words ++ after)
  isKeyword : IsKeyword words
  first :
    ∀ before' words' after',
      line = before' ++ (words' ++ after') →
        IsKeyword words' → before.length ≤ before'.length

section Line

variable {line before words after : List Char}

/- The classes of the pattern are the letters of the words. -/
theorem spells_keyword_iff :
    Pattern.Spells (keyword.map matchesLetter) words ↔
      IsKeyword words :=
  List.forall₂_map_left_iff

/- Behind the words of a directive, what they ask for is read. -/
theorem exists_attempt_directive
    (hWords : IsKeyword words)
    (after : List Char) :
    ∃ found,
      directive.attempt some ⟨none, words ++ after⟩ =
          some found ∧
        Asks (after.takeWhile isTail) (ofTail? found.kept?) := by
  rcases asks_of_attempt after with ⟨found, hFound, hAsks⟩
  refine ⟨found, ?_, hAsks⟩
  unfold directive
  rw [Pattern.attempt_behind (spells_keyword_iff.mpr hWords)]
  exact hFound

/- A directive matches only where its words stand. -/
theorem attempt_directive_eq_none
    (hNone :
      ∀ words after, text = words ++ after → ¬ IsKeyword words) :
    directive.attempt some ⟨none, text⟩ = none := by
  rw [Option.eq_none_iff_forall_ne_some]
  intro found hFound
  rcases Pattern.exists_of_attempt_behind hFound with
    ⟨words, after, hText, hSpells⟩
  exact hNone words after hText (spells_keyword_iff.mp hSpells)

/- Words that stand in a line stand there for a first time. -/
theorem HasKeyword.exists_first
    (h : HasKeyword line) :
    ∃ before words after,
      FirstKeyword line before words after := by
  have hSome :
      ∃ n before words after,
        before.length = n ∧
          line = before ++ (words ++ after) ∧
            IsKeyword words := by
    rcases h with ⟨before, words, after, hLine, hWords⟩
    exact ⟨_, before, words, after, rfl, hLine, hWords⟩
  classical
  rcases Nat.find_spec hSome with
    ⟨before, words, after, hLength, hLine, hWords⟩
  refine ⟨before, words, after, hLine, hWords, ?_⟩
  intro before' words' after' hLine' hWords'
  rw [hLength]
  exact
    Nat.find_min' hSome
      ⟨before', words', after', rfl, hLine', hWords'⟩

/- Nothing is suppressed on a line without the words. -/
theorem ofLine?_eq_none
    (h : ¬ HasKeyword line) :
    ofLine? line = none := by
  unfold ofLine?
  rw [Option.map_eq_none_iff, Pattern.search?_eq_none_iff]
  rintro before rest rfl
  apply attempt_directive_eq_none
  rintro words after rfl hWords
  exact h ⟨before, words, after, rfl, hWords⟩

/- The first words of a line say what is suppressed on it. -/
theorem FirstKeyword.exists_ofLine?
    (h : FirstKeyword line before words after) :
    ∃ s,
      ofLine? line = some s ∧ Asks (after.takeWhile isTail) s := by
  rcases exists_attempt_directive h.isKeyword after with
    ⟨found, hFound, hAsks⟩
  have hSearch : directive.search? line = some found := by
    rw [h.split]
    apply Pattern.search?_append _ hFound
    -- Words that start before the first ones would be earlier.
    rintro earlier later rfl hLater
    apply attempt_directive_eq_none
    intro words' after' hText hWords'
    have hFirst :=
      h.first earlier words' after'
        (by rw [h.split, List.append_assoc, hText]) hWords'
    have hLength := List.length_pos_iff.mpr hLater
    rw [List.length_append] at hFirst
    omega
  refine ⟨ofTail? found.kept?, ?_, hAsks⟩
  unfold ofLine?
  rw [hSearch]
  rfl

end Line

------------------------------------------------------------
-- Directives of a File
------------------------------------------------------------

/-
  What is suppressed on a line is what the run of characters
  behind its first words asks for.
-/
structure IsReadFrom
    (line : List Char)
    (s? : Option Suppression) : Prop where
  silent : ¬ HasKeyword line → s? = none
  first :
    HasKeyword line →
      ∃ before words after s,
        FirstKeyword line before words after ∧
          s? = some s ∧ Asks (after.takeWhile isTail) s

/- The suppression on a line is read from it. -/
theorem ofLine?_isReadFrom
    (line : List Char) :
    IsReadFrom line (ofLine? line) where
  silent := ofLine?_eq_none
  first h := by
    rcases h.exists_first with ⟨before, words, after, hFirst⟩
    rcases hFirst.exists_ofLine? with ⟨s, hValue, hAsks⟩
    exact ⟨before, words, after, s, hFirst, hValue, hAsks⟩

/- A line with a directive in mixed letters, and gaps between names. -/
def mixedLine : List Char :=
  "//x LEXL\u0130NT:Ignore\t A_b,, \u212A-9 é".toList

example : ofLine? mixedLine = some (.rules ["a_b", "k-9"]) := by
  rfl

-- The tail takes back the last character of the margin.
example : ofLine? "lexlint:ignore \té".toList = some .all := by
  rfl

/- No suppression that is read from a line is one of no rules. -/
theorem IsReadFrom.ne_rules_nil
    {line : List Char}
    {s : Suppression}
    (h : IsReadFrom line (some s)) :
    s ≠ .rules [] := by
  rintro rfl
  by_cases hHas : HasKeyword line
  · rcases h.first hHas with
      ⟨before, words, after, s, _, hValue, hAsks⟩
    cases hValue
    exact hAsks.2.1 rfl
  · cases h.silent hHas

/- A suppression in a file is that of one of its lines. -/
theorem exists_line_of_mem_ofData
    {data : Bytes}
    {entry : Int × Suppression}
    (h : entry ∈ ofData data) :
    ∃ (n : Nat) (line : List Char),
      ((Utf8.decodeLenient data).splitOn '\n')[n]? = some line ∧
        entry.1 = n + 1 ∧ ofLine? line = some entry.2 := by
  unfold ofData at h
  rcases List.mem_filterMap.mp h with ⟨⟨line, m⟩, hMem, hValue⟩
  rcases Option.map_eq_some_iff.mp hValue with ⟨s, hLine, rfl⟩
  rcases List.mk_mem_zipIdx_iff_le_and_getElem?_sub.mp hMem with
    ⟨hFrom, hGet⟩
  exact ⟨m - 1, line, hGet, by dsimp only; omega, hLine⟩

/-
  Line by line, the suppressions in a file are read from its
  text by one scan from left to right.  There are no others,
  and none of them is of no rules.
-/
theorem ofData_reads_lines
    (data : Bytes) :
    (∀ (n : Nat) (line : List Char),
        ((Utf8.decodeLenient data).splitOn '\n')[n]? =
            some line →
          IsReadFrom line ((ofData data).lookup ((n : Int) + 1))) ∧
      ∀ entry ∈ ofData data,
        (∃ n : Nat,
            n < ((Utf8.decodeLenient data).splitOn '\n').length ∧
              entry.1 = n + 1) ∧
          entry.2 ≠ .rules [] := by
  constructor
  · intro n line hLine
    have hLookup :
        (ofData data).lookup ((n : Int) + 1) = ofLine? line := by
      rw [Utf8.splitOn_decodeLenient, List.getElem?_map] at hLine
      rcases Option.map_eq_some_iff.mp hLine with
        ⟨piece, hPiece, rfl⟩
      rw [lookup_ofData, hPiece]
      rfl
    rw [hLookup]
    exact ofLine?_isReadFrom line
  · intro entry hMem
    rcases exists_line_of_mem_ofData hMem with
      ⟨n, line, hLine, hNumber, hValue⟩
    rcases List.getElem?_eq_some_iff.mp hLine with ⟨hLt, _⟩
    refine ⟨⟨n, hLt, hNumber⟩, ?_⟩
    have hRead := ofLine?_isReadFrom line
    rw [hValue] at hRead
    exact hRead.ne_rules_nil

/- Two lines, the second of them the one with the directive. -/
def mixedSample : List Char :=
  "a\n".toList ++ mixedLine

/- The directive of the second line is read from it. -/
theorem ofData_reads_lines_mixedSample :
    ((Utf8.decodeLenient (Utf8.encode mixedSample)).splitOn
        '\n')[1]? = some mixedLine ∧
      IsReadFrom mixedLine
        ((ofData (Utf8.encode mixedSample)).lookup 2) :=
  have hLine :
      ((Utf8.decodeLenient (Utf8.encode mixedSample)).splitOn
          '\n')[1]? = some mixedLine := by
    rw [Utf8.decodeLenient_encode]
    rfl
  ⟨hLine,
    (ofData_reads_lines (Utf8.encode mixedSample)).1 1 mixedLine
      hLine⟩

end Suppression

end CommentLint
