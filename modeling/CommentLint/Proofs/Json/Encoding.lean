import CommentLint.Proofs.Json.Reading
import CommentLint.Proofs.Json.Writing

/-
  Lossless texts of values.

  A printed value is ASCII text that denotes the value and no
  other one.  Only a value with an integer of too many digits
  is not printed.

  Key definitions include:
    * `Json.IsPlain`
    * `Json.Encodes`
    * `Json.Writes`

  Key results include:
    * `Json.isPlain_render`
    * `Json.encodes_render`
    * `Json.Value.writes_indented`
-/

namespace CommentLint

------------------------------------------------------------
-- Characters
------------------------------------------------------------

namespace Json

/- Printable characters of ASCII, and ends of lines. -/
def IsPlain (s : List Char) : Prop :=
  ∀ c ∈ s, c = '\n' ∨ 0x20 ≤ c.toNat ∧ c.toNat ≤ 0x7E

instance
    (s : List Char) :
    Decidable (IsPlain s) :=
  List.decidableBAll
    (fun c => c = '\n' ∨ 0x20 ≤ c.toNat ∧ c.toNat ≤ 0x7E) s

/- Plain characters stand one after another. -/
theorem isPlain_append
    {s t : List Char} :
    IsPlain (s ++ t) ↔ IsPlain s ∧ IsPlain t :=
  List.forall_mem_append

/- A plain character stands in front of plain characters. -/
theorem isPlain_cons
    {c : Char}
    {s : List Char} :
    IsPlain (c :: s) ↔
      (c = '\n' ∨ 0x20 ≤ c.toNat ∧ c.toNat ≤ 0x7E) ∧
        IsPlain s :=
  List.forall_mem_cons

/- Hexadecimal digits are plain. -/
theorem isPlain_hexNumeral (width n : Nat) :
    IsPlain (hexNumeral width n) := by
  intro c hc
  rcases List.mem_map.mp hc with ⟨i, _, rfl⟩
  have hDigit : n / Nat.pow 16 i % 16 < 16 :=
    Nat.mod_lt _ (by decide)
  generalize n / Nat.pow 16 i % 16 = d at hDigit
  interval_cases d <;> decide

/- An escaped code unit is plain. -/
theorem isPlain_unitEscape (n : Nat) :
    IsPlain (unitEscape n) := by
  simp [unitEscape, isPlain_cons, isPlain_hexNumeral]

/- An escaped character is plain. -/
theorem isPlain_escape (x : Char) :
    IsPlain (escape x) := by
  simp only [escape]
  split_ifs with _ _ _ _ _ _ _ hPlain
  -- The characters with an escape of one letter come last.
  rotate_left 7
  · intro c hc
    rw [List.mem_singleton.mp hc]
    exact .inr hPlain
  · exact isPlain_unitEscape _
  · exact
      isPlain_append.mpr
        ⟨isPlain_unitEscape _, isPlain_unitEscape _⟩
  all_goals decide

/- A text between quotes is plain. -/
theorem isPlain_textForm (s : String) :
    IsPlain (textForm s) := by
  have hEscaped : IsPlain (s.toList.flatMap escape) := by
    intro c hc
    rcases List.mem_flatMap.mp hc with ⟨x, _, hx⟩
    exact isPlain_escape x c hx
  simp only [textForm, isPlain_cons, isPlain_append]
  exact ⟨⟨by decide, hEscaped⟩, by decide⟩

/- A printed integer is plain. -/
theorem isPlain_integer (n : Int) :
    IsPlain n.repr.toList := by
  have hDigits (m : Nat) : IsPlain m.repr.toList := by
    intro c hc
    rw [Nat.toList_repr] at hc
    have hDigit :=
      Nat.isDigit_of_mem_toDigits (by decide) (by decide) hc
    have hBounds : 0x30 ≤ c.toNat ∧ c.toNat ≤ 0x39 :=
      Char.isDigit_iff_toNat.mp hDigit
    exact .inr ⟨by omega, by omega⟩
  rw [Int.repr_eq_if]
  split
  · exact hDigits _
  · rw [String.toList_append, isPlain_append]
    exact ⟨by decide, hDigits _⟩

------------------------------------------------------------
-- Values
------------------------------------------------------------

/- A layout of plain characters. -/
structure Layout.IsPlain (layout : Layout) : Prop where
  opening : ∀ depth, Json.IsPlain (layout.opening depth)
  between : ∀ depth, Json.IsPlain (layout.between depth)
  closing : ∀ depth, Json.IsPlain (layout.closing depth)
  afterName : Json.IsPlain layout.afterName

section

variable {layout : Layout}

/- A field is plain when the text of its value is. -/
theorem isPlain_fieldForm
    (hLayout : layout.IsPlain)
    (name : String)
    {value : List Char}
    (hValue : IsPlain value) :
    IsPlain (fieldForm layout name value) := by
  simp only [fieldForm, isPlain_append]
  exact ⟨⟨isPlain_textForm name, hLayout.afterName⟩, hValue⟩

mutual

/- A printed value is plain. -/
theorem isPlain_render
    (hLayout : layout.IsPlain) :
    (depth : Nat) →
      (v : Value) →
      v.IsExact → ∀ s, render layout depth v = .ok s → IsPlain s
  | _, .null, _ => by
      rintro _ ⟨⟩
      decide
  | _, .bool b, _ => by
      rintro _ ⟨⟩
      cases b <;> decide
  | _, .integer n, _ => by
      intro s h
      rw [render, map_eq_ok_iff] at h
      rcases h with ⟨text, hText, rfl⟩
      rw [(Numeral.write_eq_ok_iff.mp hText).2]
      exact isPlain_integer n
  | _, .text s, _ => by
      rintro _ ⟨⟩
      exact isPlain_textForm s
  | _, .array [], _ => by
      rintro _ ⟨⟩
      decide
  | depth, .array (v :: rest), .array hItems => by
      intro s h
      simp only [render, bind_eq_ok_iff, pure_eq_ok_iff] at h
      rcases h with ⟨first, hFirst, others, hOthers, rfl⟩
      have hPlain :=
        isPlain_render hLayout (depth + 1) v (hItems v (by simp))
          first hFirst
      have hRest :=
        isPlain_renderItems hLayout depth rest
          (fun w hw => hItems w (by simp [hw])) others hOthers
      simp only [List.cons_append, isPlain_cons, isPlain_append]
      exact
        ⟨by decide, ⟨hLayout.opening depth, hPlain⟩, hRest⟩
  | _, .object [], _ => by
      rintro _ ⟨⟩
      decide
  | depth, .object ((name, v) :: rest), .object _ hFields => by
      intro s h
      simp only [render, bind_eq_ok_iff, pure_eq_ok_iff] at h
      rcases h with ⟨first, hFirst, others, hOthers, rfl⟩
      have hPlain :=
        isPlain_render hLayout (depth + 1) v
          (hFields (name, v) (by simp)) first hFirst
      have hRest :=
        isPlain_renderFields hLayout depth rest
          (fun f hf => hFields f (by simp [hf])) others hOthers
      simp only [List.cons_append, isPlain_cons, isPlain_append]
      exact
        ⟨by decide,
          ⟨hLayout.opening depth,
            isPlain_fieldForm hLayout name hPlain⟩,
          hRest⟩

/- Printed items are plain. -/
theorem isPlain_renderItems
    (hLayout : layout.IsPlain) :
    (depth : Nat) →
      (items : List Value) →
      (∀ v ∈ items, v.IsExact) →
        ∀ s, renderItems layout depth items = .ok s → IsPlain s
  | depth, [], _ => by
      rintro _ ⟨⟩
      exact
        isPlain_append.mpr ⟨hLayout.closing depth, by decide⟩
  | depth, v :: rest, hExact => by
      intro s h
      simp only [renderItems, bind_eq_ok_iff,
        pure_eq_ok_iff] at h
      rcases h with ⟨next, hNext, others, hOthers, rfl⟩
      have hPlain :=
        isPlain_render hLayout (depth + 1) v (hExact v (by simp))
          next hNext
      have hRest :=
        isPlain_renderItems hLayout depth rest
          (fun w hw => hExact w (by simp [hw])) others hOthers
      simp only [isPlain_append]
      exact ⟨⟨hLayout.between depth, hPlain⟩, hRest⟩

/- Printed fields are plain. -/
theorem isPlain_renderFields
    (hLayout : layout.IsPlain) :
    (depth : Nat) →
      (fields : List (String × Value)) →
      (∀ f ∈ fields, f.2.IsExact) →
        ∀ s, renderFields layout depth fields = .ok s → IsPlain s
  | depth, [], _ => by
      rintro _ ⟨⟩
      exact
        isPlain_append.mpr ⟨hLayout.closing depth, by decide⟩
  | depth, (name, v) :: rest, hExact => by
      intro s h
      simp only [renderFields, bind_eq_ok_iff,
        pure_eq_ok_iff] at h
      rcases h with ⟨next, hNext, others, hOthers, rfl⟩
      have hPlain :=
        isPlain_render hLayout (depth + 1) v
          (hExact (name, v) (by simp)) next hNext
      have hRest :=
        isPlain_renderFields hLayout depth rest
          (fun f hf => hExact f (by simp [hf])) others hOthers
      simp only [isPlain_append]
      exact
        ⟨⟨hLayout.between depth,
            isPlain_fieldForm hLayout name hPlain⟩,
          hRest⟩

end

end

------------------------------------------------------------
-- Layouts
------------------------------------------------------------

/- The start of a line is blank and plain. -/
theorem newLine_spec (depth : Nat) :
    Blank (newLine depth) ∧ IsPlain (newLine depth) := by
  have hCases :
      ∀ c ∈ newLine depth, c = '\n' ∨ c = ' ' := by
    intro c hc
    rcases List.mem_cons.mp hc with rfl | hSpace
    · exact .inl rfl
    · exact .inr (List.eq_of_mem_replicate hSpace)
  constructor
  · intro c hc
    rcases hCases c hc with rfl | rfl <;> rfl
  · intro c hc
    rcases hCases c hc with rfl | rfl <;> decide

/- The indented layout puts only ends of lines and spaces. -/
theorem Layout.separates_indented :
    Layout.indented.Separates :=
  { opening := fun depth => (newLine_spec (depth + 1)).1
    between := fun depth =>
      ⟨_, rfl, (newLine_spec (depth + 1)).1⟩
    closing := fun depth => (newLine_spec depth).1
    afterName := ⟨[' '], rfl, by simp [Blank, isSpace]⟩ }

/- The indented layout is plain. -/
theorem Layout.isPlain_indented :
    Layout.indented.IsPlain :=
  { opening := fun depth => (newLine_spec (depth + 1)).2
    between := fun depth =>
      isPlain_cons.mpr ⟨by decide, (newLine_spec (depth + 1)).2⟩
    closing := fun depth => (newLine_spec depth).2
    afterName := by decide }

------------------------------------------------------------
-- Encodings
------------------------------------------------------------

/-
  A text that stands for a value: it is plain, the grammar
  derives the value from it and no other, and the reader finds
  the value.
-/
structure Encodes (s : String) (v : Value) : Prop where
  isPlain : IsPlain s.toList
  denotes_iff : ∀ w, Denotes s w ↔ w = v
  parse : parse? s = some v

/- A value that is printed in a plain layout is encoded. -/
theorem encodes_render
    {layout : Layout}
    (hSeparates : layout.Separates)
    (hPlain : layout.IsPlain)
    {depth : Nat}
    {v : Value}
    {s : List Char}
    (hExact : v.IsExact)
    (h : render layout depth v = .ok s) :
    Encodes (String.ofList s) v := by
  have hDenotes : Denotes (String.ofList s) v := by
    rw [Denotes, String.toList_ofList]
    exact
      (spellsValue_render hSeparates depth v hExact s h).behind
        blank_nil
  refine ⟨?_, fun w => ⟨?_, ?_⟩, hDenotes.parse⟩
  · rw [String.toList_ofList]
    exact isPlain_render hPlain depth v hExact s h
  · exact fun hOther => hOther.unique hDenotes
  · rintro rfl
    exact hDenotes

/-
  An attempt to write a value, under a condition.  It gives a
  text that stands for the value where the condition holds,
  and says that a number is too large everywhere else.
-/
structure Writes
    (attempt : Except Numeral.Error String)
    (fits : Prop)
    (v : Value) : Prop where
  encodes : fits → ∃ s, attempt = .ok s ∧ Encodes s v
  fails : ¬ fits → attempt = .error .tooLargeToWrite

/- The texts of a value that an attempt gives stand for it. -/
theorem Writes.encodes_of_eq_ok
    {attempt : Except Numeral.Error String}
    {fits : Prop}
    {v : Value}
    {s : String}
    (h : Writes attempt fits v)
    (hOk : attempt = .ok s) :
    Encodes s v := by
  by_cases hFits : fits
  · rcases h.encodes hFits with ⟨text, hText, hEncodes⟩
    rw [hOk] at hText
    cases hText
    exact hEncodes
  · rw [h.fails hFits] at hOk
    cases hOk

/- A value is written when none of its integers is too large. -/
theorem Value.writes_indented
    {v : Value}
    (hExact : v.IsExact) :
    Writes v.indented v.IsWritable v where
  encodes hWritable := by
    rcases (exists_render_iff 0 v).mpr hWritable with ⟨s, hText⟩
    refine ⟨String.ofList s, ?_, ?_⟩
    · rw [indented, hText]
      rfl
    · exact
        encodes_render Layout.separates_indented
          Layout.isPlain_indented hExact hText
  fails hMany := by
    cases hText : render .indented 0 v with
    | ok s =>
        exact absurd ((exists_render_iff 0 v).mp ⟨s, hText⟩) hMany
    | error e =>
        rw [indented, hText,
          eq_tooLargeToWrite_of_render 0 v hText]
        rfl

end Json

end CommentLint
