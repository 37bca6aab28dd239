import CommentLint.Proofs.Json.Tokens

/-
  Reading what the grammar derives.

  A derived text is read to its value, whatever stands behind
  it.  The value of a text is therefore unique.

  Key results include:
    * `Json.SpellsValue.read`
    * `Json.SpellsItems.read`
    * `Json.Denotes.parse`
    * `Json.Denotes.unique`
-/

namespace CommentLint

namespace Json

------------------------------------------------------------
-- Values behind spaces
------------------------------------------------------------

/- A value is read behind spaces. -/
theorem readValue_congr
    {s s' : List Char}
    (hSkip : skipSpace s = skipSpace s')
    (n : Nat) :
    readValue n s = readValue n s' := by
  cases n with
  | zero => simp [readValue]
  | succ n => simp [readValue, hSkip]

/- Items are read behind spaces. -/
theorem readItems_congr
    {s s' : List Char}
    (hSkip : skipSpace s = skipSpace s')
    (n : Nat)
    (done : List Value) :
    readItems n done s = readItems n done s' := by
  cases n with
  | zero => simp [readItems]
  | succ n => simp [readItems, readValue_congr hSkip]

/- Fields are read behind spaces. -/
theorem readFields_congr
    {s s' : List Char}
    (hSkip : skipSpace s = skipSpace s')
    (n : Nat)
    (done : List (String × Value)) :
    readFields n done s = readFields n done s' := by
  cases n with
  | zero => simp [readFields]
  | succ n => simp [readFields, hSkip]

------------------------------------------------------------
-- What stands around values
------------------------------------------------------------

/- A value ends at the end of a text or before a mark. -/
def EndsValue (rest : List Char) : Prop :=
  ∀ c ∈ rest.head?, c = ',' ∨ c = ']' ∨ c = '\x7d'

/- Nothing is skipped where a value ends. -/
theorem EndsValue.skipSpace_eq
    {rest : List Char}
    (h : EndsValue rest) :
    skipSpace rest = rest := by
  cases rest with
  | nil => rfl
  | cons c rest =>
      apply skipSpace_cons
      rcases h c rfl with rfl | rfl | rfl <;> rfl

/- A number ends where a value ends, and before blanks. -/
theorem EndsValue.endsNumber
    {b rest : List Char}
    (h : EndsValue rest)
    (hBlank : Blank b) :
    EndsNumber (b ++ rest) := by
  intro c hc
  cases b with
  | nil => rcases h c hc with rfl | rfl | rfl <;> decide
  | cons d b =>
      cases hc
      have hSpace := hBlank c (by simp)
      simp only [isSpace, Bool.or_eq_true, beq_iff_eq] at hSpace
      rcases hSpace with ((rfl | rfl) | rfl) | rfl <;> decide

/- A digit is no space. -/
theorem isSpace_of_isDigit
    {c : Char}
    (hDigit : c.isDigit = true) :
    isSpace c = false := by
  have hBlank : c ≠ ' ' := ne_of_isDigit hDigit rfl
  have hTab : c ≠ '\t' := ne_of_isDigit hDigit rfl
  have hLine : c ≠ '\n' := ne_of_isDigit hDigit rfl
  have hReturn : c ≠ '\r' := ne_of_isDigit hDigit rfl
  simp [isSpace, hBlank, hTab, hLine, hReturn]

/- A number starts with a sign or a digit. -/
theorem SpellsNumber.exists_cons
    {v : Value}
    {s : List Char}
    (h : SpellsNumber v s) :
    ∃ c t, s = c :: t ∧ (c = '-' ∨ c.isDigit = true) := by
  cases h with
  | parts negative hWhole _ _ =>
      rcases hWhole.exists_cons with ⟨d, ds, rfl, hFirst⟩
      cases negative
      · exact ⟨d, _, rfl, .inr hFirst⟩
      · exact ⟨'-', _, rfl, .inl rfl⟩

/- A value starts neither with a space nor with a closing mark. -/
theorem SpellsValue.exists_cons
    {v : Value}
    {s : List Char}
    (h : SpellsValue v s) :
    ∃ c t, s = c :: t ∧ isSpace c = false ∧ c ≠ ']' := by
  cases h with
  | null => exact ⟨_, _, rfl, rfl, by decide⟩
  | isTrue => exact ⟨_, _, rfl, rfl, by decide⟩
  | isFalse => exact ⟨_, _, rfl, rfl, by decide⟩
  | number hNumber =>
      rcases hNumber.exists_cons with ⟨c, t, rfl, rfl | hDigit⟩
      · exact ⟨_, _, rfl, rfl, by decide⟩
      · exact
          ⟨c, t, rfl, isSpace_of_isDigit hDigit,
            ne_of_isDigit hDigit rfl⟩
  | text hText =>
      cases hText
      exact ⟨_, _, rfl, rfl, by decide⟩
  | emptyArray _ => exact ⟨_, _, rfl, rfl, by decide⟩
  | array _ => exact ⟨_, _, rfl, rfl, by decide⟩
  | emptyObject _ => exact ⟨_, _, rfl, rfl, by decide⟩
  | object _ => exact ⟨_, _, rfl, rfl, by decide⟩

/- Behind spaces, a padded value starts with its first token. -/
theorem SpellsElement.skipSpace_eq
    {v : Value}
    {s : List Char}
    (h : SpellsElement v s)
    (rest : List Char) :
    ∃ c t, skipSpace (s ++ rest) = c :: t ∧ c ≠ ']' := by
  cases h with
  | @padded _ b w b' hBefore hValue _ =>
      rcases hValue.exists_cons with ⟨c, t, rfl, hSpace, hClose⟩
      refine ⟨c, t ++ b' ++ rest, ?_, hClose⟩
      rw [List.append_assoc, List.append_assoc,
        skipSpace_append hBefore, List.cons_append,
        skipSpace_cons hSpace, ← List.append_assoc]

/- Items start with a token that closes no array. -/
theorem SpellsItems.skipSpace_eq
    {vs : List Value}
    {s : List Char}
    (h : SpellsItems vs s)
    (rest : List Char) :
    ∃ c t, skipSpace (s ++ rest) = c :: t ∧ c ≠ ']' := by
  cases h with
  | last hItem => exact hItem.skipSpace_eq rest
  | @more _ _ s t hItem _ =>
      rw [List.append_assoc]
      exact hItem.skipSpace_eq _

/- The name of a field is read up to its colon. -/
theorem SpellsName.read
    {name : String}
    {s : List Char}
    (h : SpellsName name s)
    (rest : List Char) :
    ∃ t t',
      skipSpace (s ++ rest) = '"' :: t ∧
        readText t = some (name, t') ∧
        skipSpace t' = ':' :: rest := by
  cases h with
  | @colon b w b' hBefore hText hAfter =>
      rcases readText_of_spellsText hText (b' ++ ':' :: rest) with
        ⟨t, hQuote, hRead⟩
      refine ⟨t, b' ++ ':' :: rest, ?_, hRead, ?_⟩
      · simp only [List.append_assoc, List.cons_append,
          List.nil_append]
        rw [skipSpace_append hBefore, hQuote, skipSpace_cons rfl]
      · rw [skipSpace_append hAfter, skipSpace_cons rfl]

/- Fields start with the quote of a name. -/
theorem SpellsFields.skipSpace_eq
    {fields : List (String × Value)}
    {s : List Char}
    (h : SpellsFields fields s)
    (rest : List Char) :
    ∃ t, skipSpace (s ++ rest) = '"' :: t := by
  cases h with
  | last hName _ =>
      rw [List.append_assoc]
      rcases hName.read _ with ⟨t, _, hQuote, _⟩
      exact ⟨t, hQuote⟩
  | more hName _ _ =>
      rw [List.append_assoc, List.append_assoc]
      rcases hName.read _ with ⟨t, _, hQuote, _⟩
      exact ⟨t, hQuote⟩

------------------------------------------------------------
-- Steps of the reader
------------------------------------------------------------

section

variable {n : Nat} {rest : List Char}

/- A spelled number is read as a value. -/
theorem readValue_number
    {v : Value}
    {s : List Char}
    (h : SpellsNumber v s)
    (hRest : EndsNumber rest) :
    readValue (n + 1) (s ++ rest) = some (v, rest) := by
  have hRead := readNumber_of_spellsNumber h hRest
  rcases h.exists_cons with ⟨c, t, rfl, hFirst⟩
  rw [List.cons_append] at hRead ⊢
  rcases hFirst with rfl | hDigit
  · simp [readValue, skipSpace_cons, isSpace, hRead]
  · have hSpace := isSpace_of_isDigit hDigit
    have hQuote : c ≠ '"' := ne_of_isDigit hDigit rfl
    have hArray : c ≠ '[' := ne_of_isDigit hDigit rfl
    have hObject : c ≠ '\x7b' := ne_of_isDigit hDigit rfl
    simp [readValue, skipSpace_cons hSpace, hDigit, hRead]

/- A spelled text is read as a value. -/
theorem readValue_text
    {t : String}
    {s : List Char}
    (h : SpellsText t s) :
    readValue (n + 1) (s ++ rest) = some (.text t, rest) := by
  rcases readText_of_spellsText h rest with ⟨s', hQuote, hRead⟩
  rw [hQuote]
  simp [readValue, skipSpace_cons (c := '"') rfl, hRead]

/- Blanks between brackets are read as no items. -/
theorem readValue_emptyArray
    {b : List Char}
    (hBlank : Blank b) :
    readValue (n + 1) ('[' :: (b ++ ']' :: rest)) =
      some (.array [], rest) := by
  have hClose : skipSpace (b ++ ']' :: rest) = ']' :: rest := by
    rw [skipSpace_append hBlank, skipSpace_cons rfl]
  simp [readValue, skipSpace_cons (c := '[') rfl, hClose]

/- Items that do not start with a closer are read. -/
theorem readValue_array
    {c : Char}
    {s t : List Char}
    (hSkip : skipSpace s = c :: t)
    (hClose : c ≠ ']') :
    readValue (n + 1) ('[' :: s) = readItems n [] s := by
  have hItems : readItems n [] (c :: t) = readItems n [] s := by
    rw [← hSkip]
    exact readItems_congr (skipSpace_skipSpace s) n []
  simp [readValue, skipSpace_cons (c := '[') rfl, hSkip, hClose,
    hItems]

/- Blanks between braces are read as no fields. -/
theorem readValue_emptyObject
    {b : List Char}
    (hBlank : Blank b) :
    readValue (n + 1) ('\x7b' :: (b ++ '\x7d' :: rest)) =
      some (.object [], rest) := by
  have hClose :
      skipSpace (b ++ '\x7d' :: rest) = '\x7d' :: rest := by
    rw [skipSpace_append hBlank, skipSpace_cons rfl]
  simp [readValue, skipSpace_cons (c := '\x7b') rfl, hClose]

/- Fields that start with a name are read. -/
theorem readValue_object
    {s t : List Char}
    (hSkip : skipSpace s = '"' :: t) :
    readValue (n + 1) ('\x7b' :: s) = readFields n [] s := by
  have hFields :
      readFields n [] ('"' :: t) = readFields n [] s := by
    rw [← hSkip]
    exact readFields_congr (skipSpace_skipSpace s) n []
  simp [readValue, skipSpace_cons (c := '\x7b') rfl, hSkip,
    hFields]

/- The last item is read up to the closer of its array. -/
theorem readItems_last
    {v : Value}
    {vs : List Value}
    {s rest' : List Char}
    (hItem : readValue n s = some (v, rest'))
    (hClose : skipSpace rest' = ']' :: rest) :
    readItems (n + 1) vs s =
      some (.array (vs.reverse ++ [v]), rest) := by
  simp [readItems, hItem, hClose]

/- Behind an item and a comma, further items are read. -/
theorem readItems_more
    {v : Value}
    {vs : List Value}
    {s rest' : List Char}
    (hItem : readValue n s = some (v, rest'))
    (hComma : skipSpace rest' = ',' :: rest) :
    readItems (n + 1) vs s = readItems n (v :: vs) rest := by
  simp [readItems, hItem, hComma]

/- The last field is read up to the closer of its object. -/
theorem readFields_last
    {name : String}
    {v : Value}
    {fields : List (String × Value)}
    {s t t' u rest' : List Char}
    (hQuote : skipSpace s = '"' :: t)
    (hName : readText t = some (name, t'))
    (hColon : skipSpace t' = ':' :: u)
    (hValue : readValue n u = some (v, rest'))
    (hClose : skipSpace rest' = '\x7d' :: rest) :
    readFields (n + 1) fields s =
      some (.object (fields.reverse ++ [(name, v)]), rest) := by
  simp [readFields, hQuote, hName, hColon, hValue, hClose]

/- Behind a field and a comma, further fields are read. -/
theorem readFields_more
    {name : String}
    {v : Value}
    {fields : List (String × Value)}
    {s t t' u rest' : List Char}
    (hQuote : skipSpace s = '"' :: t)
    (hName : readText t = some (name, t'))
    (hColon : skipSpace t' = ':' :: u)
    (hValue : readValue n u = some (v, rest'))
    (hComma : skipSpace rest' = ',' :: rest) :
    readFields (n + 1) fields s =
      readFields n ((name, v) :: fields) rest := by
  simp [readFields, hQuote, hName, hColon, hValue, hComma]

end

------------------------------------------------------------
-- Derivations
------------------------------------------------------------

/- A mark ends a value. -/
theorem endsValue_cons
    {c : Char}
    (hMark : c = ',' ∨ c = ']' ∨ c = '\x7d')
    (rest : List Char) :
    EndsValue (c :: rest) := by
  rintro d ⟨⟩
  exact hMark

-- The characters of a spelling bound the steps it takes: the
-- brackets pay for the container and the commas for the items.
mutual

/- A spelled value is read. -/
theorem SpellsValue.read
    {v : Value}
    {s : List Char}
    (h : SpellsValue v s)
    {n : Nat}
    (hSteps : s.length ≤ n)
    {rest : List Char}
    (hRest : EndsNumber rest) :
    readValue n (s ++ rest) = some (v, rest) := by
  obtain ⟨n, rfl⟩ : ∃ m, n = m + 1 := by
    rcases h.exists_cons with ⟨c, t, rfl, _⟩
    exact Nat.exists_eq_add_one.mpr (Nat.zero_lt_of_lt hSteps)
  match h with
  | .null => rfl
  | .isTrue => rfl
  | .isFalse => rfl
  | .number hNumber => exact readValue_number hNumber hRest
  | .text hText => exact readValue_text hText
  | .emptyArray hBlank =>
      simpa using readValue_emptyArray hBlank
  | .array (s := s) hItems =>
      simp only [List.cons_append, List.append_assoc,
        List.nil_append]
      rcases hItems.skipSpace_eq (']' :: rest) with
        ⟨c, t, hSkip, hClose⟩
      rw [readValue_array hSkip hClose, hItems.read]
      · rfl
      · simp only [List.length_append, List.length_cons,
          List.length_nil] at hSteps
        omega
  | .emptyObject hBlank =>
      simpa using readValue_emptyObject hBlank
  | .object (s := s) hFields =>
      simp only [List.cons_append, List.append_assoc,
        List.nil_append]
      rcases hFields.skipSpace_eq ('\x7d' :: rest) with ⟨t, hSkip⟩
      rw [readValue_object hSkip, hFields.read]
      · rfl
      · simp only [List.length_append, List.length_cons,
          List.length_nil] at hSteps
        omega

/- A spelled value with blanks around it is read. -/
theorem SpellsElement.read
    {v : Value}
    {s : List Char}
    (h : SpellsElement v s)
    {n : Nat}
    (hSteps : s.length ≤ n)
    {rest : List Char}
    (hRest : EndsValue rest) :
    ∃ rest',
      readValue n (s ++ rest) = some (v, rest') ∧
        skipSpace rest' = rest := by
  match h with
  | @SpellsElement.padded _ b w b' hBefore hValue hAfter =>
      have hLength : w.length ≤ n := by
        simp only [List.length_append] at hSteps
        omega
      have hRead :=
        hValue.read hLength (hRest.endsNumber hAfter)
      refine ⟨b' ++ rest, ?_, ?_⟩
      · rw [← hRead]
        apply readValue_congr
        rw [List.append_assoc, List.append_assoc,
          skipSpace_append hBefore]
      · rw [skipSpace_append hAfter, hRest.skipSpace_eq]

/- Spelled items are read up to the closer of their array. -/
theorem SpellsItems.read
    {vs : List Value}
    {s : List Char}
    (h : SpellsItems vs s)
    {n : Nat}
    (hSteps : s.length < n)
    {done : List Value}
    {rest : List Char} :
    readItems n done (s ++ ']' :: rest) =
      some (.array (done.reverse ++ vs), rest) := by
  obtain ⟨n, rfl⟩ := Nat.exists_eq_add_one_of_ne_zero
    (Nat.ne_zero_of_lt hSteps)
  match h with
  | .last hItem =>
      rcases hItem.read (Nat.le_of_lt_succ hSteps)
          (endsValue_cons (.inr (.inl rfl)) rest) with
        ⟨rest', hRead, hClose⟩
      exact readItems_last hRead hClose
  | .more (s := s) (t := t) hItem hItems =>
      simp only [List.length_append, List.length_cons] at hSteps
      rcases hItem.read (n := n) (by omega)
          (endsValue_cons (.inl rfl) (t ++ ']' :: rest)) with
        ⟨rest', hRead, hComma⟩
      rw [List.append_assoc, List.cons_append,
        readItems_more hRead hComma, hItems.read (by omega)]
      simp

/- Spelled fields are read up to the closer of their object. -/
theorem SpellsFields.read
    {fields : List (String × Value)}
    {s : List Char}
    (h : SpellsFields fields s)
    {n : Nat}
    (hSteps : s.length < n)
    {done : List (String × Value)}
    {rest : List Char} :
    readFields n done (s ++ '\x7d' :: rest) =
      some (.object (done.reverse ++ fields), rest) := by
  obtain ⟨n, rfl⟩ := Nat.exists_eq_add_one_of_ne_zero
    (Nat.ne_zero_of_lt hSteps)
  match h with
  | .last (t := t) hName hValue =>
      simp only [List.length_append] at hSteps
      rcases hValue.read (n := n) (by omega)
          (endsValue_cons (.inr (.inr rfl)) rest) with
        ⟨rest', hRead, hClose⟩
      rcases hName.read (t ++ '\x7d' :: rest) with
        ⟨u, u', hQuote, hText, hColon⟩
      rw [List.append_assoc]
      exact readFields_last hQuote hText hColon hRead hClose
  | .more (t := t) (u := u) hName hValue hFields =>
      simp only [List.length_append, List.length_cons] at hSteps
      rcases hValue.read (n := n) (by omega)
          (endsValue_cons (.inl rfl) (u ++ '\x7d' :: rest)) with
        ⟨rest', hRead, hComma⟩
      rcases hName.read (t ++ ',' :: (u ++ '\x7d' :: rest)) with
        ⟨w, w', hQuote, hText, hColon⟩
      rw [List.append_assoc, List.append_assoc, List.cons_append,
        readFields_more hQuote hText hColon hRead hComma,
        hFields.read (by omega)]
      simp

end

------------------------------------------------------------
-- Whole texts
------------------------------------------------------------

/- A text is read to the value that the grammar gives it. -/
theorem Denotes.parse
    {s : String}
    {v : Value}
    (h : Denotes s v) :
    parse? s = some v := by
  have hEnd : EndsValue [] := by
    rintro c ⟨⟩
  rcases SpellsElement.read h
      (show s.toList.length ≤ 2 * s.toList.length + 2 by omega)
      hEnd with
    ⟨rest', hRead, hSkip⟩
  rw [List.append_nil] at hRead
  simp [parse?, hRead, hSkip]

/- The grammar gives a text at most one value. -/
theorem Denotes.unique
    {s : String}
    {v w : Value}
    (h : Denotes s v)
    (h' : Denotes s w) :
    v = w :=
  Option.some.inj (h.parse.symm.trans h'.parse)

end Json

end CommentLint
