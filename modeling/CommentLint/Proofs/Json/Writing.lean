import CommentLint.Json.Printer
import CommentLint.Proofs.Json.Grammar
import CommentLint.Proofs.Number.WrittenIntegers
import Mathlib.Tactic.IntervalCases

/-
  Printed values in the grammar.

  A value is printed unless it holds an integer that has too
  many digits.  A layout puts nothing but blanks around commas
  and colons.  A printed value is then derived by the grammar,
  whatever its depth.

  Key definitions include:
    * `Json.Value.Holds`
    * `Json.Value.IsWritable`
    * `Json.Value.IsExact`
    * `Json.Layout.Separates`

  Key results include:
    * `Json.spellsChar_escape`
    * `Json.spellsNumber_integer`
    * `Json.spellsText_textForm`
    * `Json.exists_render_iff`
    * `Json.eq_tooLargeToWrite_of_render`
    * `Json.spellsValue_render`
-/

namespace CommentLint

------------------------------------------------------------
-- Hexadecimal digits
------------------------------------------------------------

/- The digit for a value has that value. -/
theorem hexValue_hexDigit
    {n : Nat}
    (hDigit : n < 16) :
    hexValue? (hexDigit n) = some n := by
  interval_cases n <;> rfl

namespace Json

/- Four digits for a code unit have its value. -/
theorem hexUnit_hexNumeral
    {n : Nat}
    (hUnit : n < 0x10000) :
    ∃ a b c d,
      hexNumeral 4 n = [a, b, c, d] ∧
        hexUnit? a b c d = some n := by
  have hDigit (i : Nat) :
      hexValue? (hexDigit (n / 16 ^ i % 16)) =
        some (n / 16 ^ i % 16) :=
    hexValue_hexDigit (Nat.mod_lt _ (by decide))
  refine
    ⟨hexDigit (n / 16 ^ 3 % 16), hexDigit (n / 16 ^ 2 % 16),
      hexDigit (n / 16 ^ 1 % 16), hexDigit (n / 16 ^ 0 % 16), rfl, ?_⟩
  simp only [hexUnit?, hDigit, Option.some.injEq]
  omega

------------------------------------------------------------
-- Texts
------------------------------------------------------------

/- An escaped code unit spells the character that it is. -/
theorem spellsChar_unitEscape
    {x : Char}
    (hUnit : x.toNat < 0x10000) :
    SpellsChar x (unitEscape x.toNat) := by
  rcases hexUnit_hexNumeral hUnit with ⟨a, b, c, d, hText, hValue⟩
  rw [unitEscape, hText]
  exact .unit hValue

/- Two escaped code units spell the character of their pair. -/
theorem spellsChar_pair
    {x : Char}
    (hUnit : 0x10000 ≤ x.toNat) :
    SpellsChar x
      (unitEscape (0xD800 + (x.toNat - 0x10000) / 0x400) ++
        unitEscape (0xDC00 + (x.toNat - 0x10000) % 0x400)) := by
  have hValid : x.toNat.isValidChar := x.valid
  have hMost : x.toNat < 0x110000 := by
    rcases hValid with hBefore | ⟨_, hAfter⟩ <;> omega
  rcases hexUnit_hexNumeral
      (n := 0xD800 + (x.toNat - 0x10000) / 0x400) (by omega) with
    ⟨a, b, c, d, hHigh, hHighValue⟩
  rcases hexUnit_hexNumeral
      (n := 0xDC00 + (x.toNat - 0x10000) % 0x400) (by omega) with
    ⟨e, f, g, h, hLow, hLowValue⟩
  rw [unitEscape, unitEscape, hHigh, hLow]
  refine .pair hHighValue hLowValue ?_ ?_ ?_
  · simp [isHighSurrogate]
    omega
  · simp [isLowSurrogate]
    omega
  · omega

/- An escaped character is spelled. -/
theorem spellsChar_escape (x : Char) :
    SpellsChar x (escape x) := by
  simp only [escape]
  split_ifs with hQuote hBackslash hLine hReturn hTab hBack hFeed
    hPlain hUnit
  · rw [hQuote]
    exact .letter rfl
  · rw [hBackslash]
    exact .letter rfl
  · rw [hLine]
    exact .letter rfl
  · rw [hReturn]
    exact .letter rfl
  · rw [hTab]
    exact .letter rfl
  · rw [hBack]
    exact .letter rfl
  · rw [hFeed]
    exact .letter rfl
  · exact .plain hQuote hBackslash hPlain.1
  · exact spellsChar_unitEscape (Nat.lt_succ_of_le hUnit)
  · exact spellsChar_pair (Nat.lt_of_not_le hUnit)

example : escape '😀' = "\\ud83d\\ude00".toList := by
  decide

/- Escaped characters are spelled. -/
theorem spellsChars_escape (xs : List Char) :
    SpellsChars xs (xs.flatMap escape) := by
  induction xs with
  | nil => exact .nil
  | cons x xs ih => exact .cons (spellsChar_escape x) ih

/- A text between quotes is spelled. -/
theorem spellsText_textForm (s : String) :
    SpellsText s (textForm s) := by
  have hText := SpellsText.quoted (spellsChars_escape s.toList)
  rwa [String.ofList_toList] at hText

------------------------------------------------------------
-- Numbers
------------------------------------------------------------

/- The digits of a number give its value. -/
theorem decimalValue_toDigits (n : Nat) :
    decimalValue 0 (Nat.toDigits 10 n) = n := by
  have hDigits := Nat.ofDigitChars_ten_toDigits (n := n)
  rw [Nat.ofDigitChars_eq_foldl] at hDigits
  simpa [decimalValue, Nat.mul_comm] using hDigits

/- The digits of a number start with zero only where it is zero. -/
theorem head_toDigits
    (n : Nat)
    (hHead : (Nat.toDigits 10 n).head? = some '0') :
    n = 0 := by
  induction n using Nat.strongRecOn with
  | ind n ih =>
      rw [Nat.toDigits_eq_if (by decide)] at hHead
      split_ifs at hHead with hDigit
      · have hZero : n.digitChar = '0' := by simpa using hHead
        interval_cases n <;> first | rfl | cases hZero
      · have hFirst :=
          List.head?_eq_some_head
            (Nat.toDigits_ne_nil (n := n / 10) (b := 10))
        rw [List.head?_append, hFirst, Option.some_or, ← hFirst]
          at hHead
        have hTenth := ih (n / 10) (by omega) hHead
        omega

/- The digits of a number start with no zero in vain. -/
theorem isWhole_toDigits (n : Nat) :
    IsWhole (Nat.toDigits 10 n) :=
  { ne_nil := Nat.toDigits_ne_nil
    isDigit := fun c hc =>
      Nat.isDigit_of_mem_toDigits (by decide) (by decide) hc
    eq_zero := fun hHead => by
      rw [head_toDigits n hHead]
      rfl }

/- A printed integer is spelled. -/
theorem spellsNumber_integer (n : Int) :
    SpellsNumber (.integer n) n.repr.toList := by
  have hDigits (negative : Bool) (m : Nat) :=
    SpellsNumber.parts negative (isWhole_toDigits m) .none .none
  rw [Int.repr_eq_if]
  split_ifs with hSign
  · have hValue :
        numberValue false (Nat.toDigits 10 n.toNat) [] none =
          .integer n := by
      simp [numberValue, decimalValue_toDigits, hSign]
    have hText := hDigits false n.toNat
    rw [hValue] at hText
    simpa [minus, Nat.toList_repr] using hText
  · have hValue :
        numberValue true (Nat.toDigits 10 (-n).toNat) [] none =
          .integer n := by
      simp [numberValue, decimalValue_toDigits]
      omega
    have hText := hDigits true (-n).toNat
    rw [hValue] at hText
    simpa [minus, Nat.toList_repr] using hText

------------------------------------------------------------
-- Values That Can Be Written
------------------------------------------------------------

namespace Value

/- An integer that stands somewhere in a value. -/
inductive Holds (n : Int) : Value → Prop where
| integer : Holds n (.integer n)
| item
    {v : Value}
    {items : List Value}
    (hMem : v ∈ items)
    (hHolds : Holds n v) :
    Holds n (.array items)
| field
    {name : String}
    {v : Value}
    {fields : List (String × Value)}
    (hMem : (name, v) ∈ fields)
    (hHolds : Holds n v) :
    Holds n (.object fields)

/- A value in which no integer has too many digits. -/
def IsWritable (v : Value) : Prop :=
  ∀ n, v.Holds n → Numeral.IsWritable n

/- What holds no integer is writable. -/
@[simp]
theorem isWritable_null : null.IsWritable := by
  rintro n ⟨⟩

@[simp]
theorem isWritable_bool (b : Bool) : (bool b).IsWritable := by
  rintro n ⟨⟩

@[simp]
theorem isWritable_decimal (x : Binary64) :
    (decimal x).IsWritable := by
  rintro n ⟨⟩

@[simp]
theorem isWritable_text (s : String) : (text s).IsWritable := by
  rintro n ⟨⟩

/- An integer is writable when it has a numeral. -/
@[simp]
theorem isWritable_integer_iff
    {n : Int} :
    (integer n).IsWritable ↔ Numeral.IsWritable n := by
  constructor
  · intro h
    exact h n .integer
  · rintro h _ ⟨⟩
    exact h

/- An array is writable when its items are. -/
@[simp]
theorem isWritable_array_iff
    {items : List Value} :
    (array items).IsWritable ↔ ∀ v ∈ items, v.IsWritable := by
  constructor
  · intro h v hMem n hHolds
    exact h n (.item hMem hHolds)
  · rintro h n (_ | ⟨hMem, hHolds⟩)
    exact h _ hMem n hHolds

/- An object is writable when its fields are. -/
@[simp]
theorem isWritable_object_iff
    {fields : List (String × Value)} :
    (object fields).IsWritable ↔
      ∀ f ∈ fields, f.2.IsWritable := by
  constructor
  · rintro h ⟨name, v⟩ hMem n hHolds
    exact h n (.field hMem hHolds)
  · rintro h n (_ | _ | ⟨hMem, hHolds⟩)
    exact h _ hMem n hHolds

end Value

section Writable

variable {layout : Layout}

mutual

/- The values that are printed are the writable ones. -/
theorem exists_render_iff :
    (depth : Nat) →
      (v : Value) →
      ((∃ s, render layout depth v = .ok s) ↔ v.IsWritable)
  | _, .null => by simp [render]
  | _, .bool _ => by simp [render]
  | _, .integer n => by
      rw [render, exists_map_iff, Numeral.exists_write_iff,
        Value.isWritable_integer_iff]
  | _, .decimal _ => by simp [render]
  | _, .text _ => by simp [render]
  | _, .array [] => by simp [render]
  | depth, .array (v :: rest) => by
      rw [Value.isWritable_array_iff, List.forall_mem_cons,
        ← exists_render_iff (depth + 1) v,
        ← exists_renderItems_iff depth rest]
      simp only [render, exists_bind_iff, pure_eq_ok_iff,
        exists_eq', and_true, exists_and_right]
  | _, .object [] => by simp [render]
  | depth, .object ((name, v) :: rest) => by
      rw [Value.isWritable_object_iff, List.forall_mem_cons,
        ← exists_render_iff (depth + 1) v,
        ← exists_renderFields_iff depth rest]
      simp only [render, exists_bind_iff, pure_eq_ok_iff,
        exists_eq', and_true, exists_and_right]

/- Items are printed when they are writable. -/
theorem exists_renderItems_iff :
    (depth : Nat) →
      (items : List Value) →
      ((∃ s, renderItems layout depth items = .ok s) ↔
        ∀ v ∈ items, v.IsWritable)
  | _, [] => by simp [renderItems]
  | depth, v :: rest => by
      rw [List.forall_mem_cons, ← exists_render_iff (depth + 1) v,
        ← exists_renderItems_iff depth rest]
      simp only [renderItems, exists_bind_iff, pure_eq_ok_iff,
        exists_eq', and_true, exists_and_right]

/- Fields are printed when their values are writable. -/
theorem exists_renderFields_iff :
    (depth : Nat) →
      (fields : List (String × Value)) →
      ((∃ s, renderFields layout depth fields = .ok s) ↔
        ∀ f ∈ fields, f.2.IsWritable)
  | _, [] => by simp [renderFields]
  | depth, (name, v) :: rest => by
      rw [List.forall_mem_cons, ← exists_render_iff (depth + 1) v,
        ← exists_renderFields_iff depth rest]
      simp only [renderFields, exists_bind_iff, pure_eq_ok_iff,
        exists_eq', and_true, exists_and_right]

end

mutual

/- A value that is not printed has a number too large for that. -/
theorem eq_tooLargeToWrite_of_render
    {e : Numeral.Error} :
    (depth : Nat) →
      (v : Value) →
      render layout depth v = .error e → e = .tooLargeToWrite
  | _, .null => by rintro ⟨⟩
  | _, .bool _ => by rintro ⟨⟩
  | _, .integer n => by
      intro h
      rw [render, map_eq_error_iff,
        Numeral.write_eq_error_iff] at h
      exact h.2
  | _, .decimal _ => by rintro ⟨⟩
  | _, .text _ => by rintro ⟨⟩
  | _, .array [] => by rintro ⟨⟩
  | depth, .array (v :: rest) => by
      intro h
      simp only [render, bind_eq_error_iff] at h
      rcases h with hFirst | ⟨_, _, hOthers | ⟨_, _, ⟨⟩⟩⟩
      · exact eq_tooLargeToWrite_of_render (depth + 1) v hFirst
      · exact eq_tooLargeToWrite_of_renderItems depth rest hOthers
  | _, .object [] => by rintro ⟨⟩
  | depth, .object ((name, v) :: rest) => by
      intro h
      simp only [render, bind_eq_error_iff] at h
      rcases h with hFirst | ⟨_, _, hOthers | ⟨_, _, ⟨⟩⟩⟩
      · exact eq_tooLargeToWrite_of_render (depth + 1) v hFirst
      · exact
          eq_tooLargeToWrite_of_renderFields depth rest hOthers

/- The same for the items of an array. -/
theorem eq_tooLargeToWrite_of_renderItems
    {e : Numeral.Error} :
    (depth : Nat) →
      (items : List Value) →
      renderItems layout depth items = .error e →
        e = .tooLargeToWrite
  | _, [] => by rintro ⟨⟩
  | depth, v :: rest => by
      intro h
      simp only [renderItems, bind_eq_error_iff] at h
      rcases h with hFirst | ⟨_, _, hOthers | ⟨_, _, ⟨⟩⟩⟩
      · exact eq_tooLargeToWrite_of_render (depth + 1) v hFirst
      · exact eq_tooLargeToWrite_of_renderItems depth rest hOthers

/- The same for the fields of an object. -/
theorem eq_tooLargeToWrite_of_renderFields
    {e : Numeral.Error} :
    (depth : Nat) →
      (fields : List (String × Value)) →
      renderFields layout depth fields = .error e →
        e = .tooLargeToWrite
  | _, [] => by rintro ⟨⟩
  | depth, (name, v) :: rest => by
      intro h
      simp only [renderFields, bind_eq_error_iff] at h
      rcases h with hFirst | ⟨_, _, hOthers | ⟨_, _, ⟨⟩⟩⟩
      · exact eq_tooLargeToWrite_of_render (depth + 1) v hFirst
      · exact
          eq_tooLargeToWrite_of_renderFields depth rest hOthers

end

end Writable

------------------------------------------------------------
-- Exact Values
------------------------------------------------------------

/-
  A value without rounded numbers, whose objects name each
  field once.
-/
inductive Value.IsExact : Value → Prop where
| null : IsExact .null
| bool (b : Bool) : IsExact (.bool b)
| integer (n : Int) : IsExact (.integer n)
| text (s : String) : IsExact (.text s)
| array
    {items : List Value}
    (hItems : ∀ v ∈ items, IsExact v) :
    IsExact (.array items)
| object
    {fields : List (String × Value)}
    (hNames : (fields.map Prod.fst).Nodup)
    (hFields : ∀ f ∈ fields, IsExact f.2) :
    IsExact (.object fields)

namespace Value

attribute [simp] IsExact.null IsExact.bool IsExact.integer
  IsExact.text

/- An array is as exact as its items. -/
@[simp]
theorem isExact_array_iff
    {items : List Value} :
    (array items).IsExact ↔ ∀ v ∈ items, v.IsExact := by
  constructor
  · rintro ⟨⟩
    assumption
  · exact .array

/- An object is as exact as its fields, with different names. -/
@[simp]
theorem isExact_object_iff
    {fields : List (String × Value)} :
    (object fields).IsExact ↔
      (fields.map Prod.fst).Nodup ∧
        ∀ f ∈ fields, f.2.IsExact := by
  constructor
  · rintro ⟨⟩
    constructor <;> assumption
  · exact fun h => .object h.1 h.2

end Value

------------------------------------------------------------
-- Printed Values
------------------------------------------------------------

/- A layout that puts only blanks between tokens. -/
structure Layout.Separates (layout : Layout) : Prop where
  opening : ∀ depth, Blank (layout.opening depth)
  between :
    ∀ depth, ∃ b, layout.between depth = ',' :: b ∧ Blank b
  closing : ∀ depth, Blank (layout.closing depth)
  afterName : ∃ b, layout.afterName = ':' :: b ∧ Blank b

/- No characters at all are blank. -/
theorem blank_nil : Blank [] := by
  simp [Blank]

/- A spelled value may stand behind blanks. -/
theorem SpellsValue.behind
    {v : Value}
    {b s : List Char}
    (hValue : SpellsValue v s)
    (hBlank : Blank b) :
    SpellsElement v (b ++ s) := by
  have hElement := SpellsElement.padded hBlank hValue blank_nil
  rwa [List.append_nil] at hElement

section

variable {layout : Layout}

/- A printed name is spelled up to the colon. -/
theorem spellsName_textForm
    {b : List Char}
    (hBlank : Blank b)
    (name : String) :
    SpellsName name (b ++ textForm name ++ [':']) := by
  have hName :=
    SpellsName.colon hBlank (spellsText_textForm name) blank_nil
  rwa [List.append_nil] at hName

mutual

/- A printed value is spelled. -/
theorem spellsValue_render
    (hLayout : layout.Separates) :
    (depth : Nat) →
      (v : Value) →
      v.IsExact →
        ∀ s, render layout depth v = .ok s → SpellsValue v s
  | _, .null, _ => by
      rintro _ ⟨⟩
      exact .null
  | _, .bool b, _ => by
      rintro _ ⟨⟩
      cases b
      · exact .isFalse
      · exact .isTrue
  | _, .integer n, _ => by
      intro s h
      rw [render, map_eq_ok_iff] at h
      rcases h with ⟨text, hText, rfl⟩
      rw [(Numeral.write_eq_ok_iff.mp hText).2]
      exact .number (spellsNumber_integer n)
  | _, .text s, _ => by
      rintro _ ⟨⟩
      exact .text (spellsText_textForm s)
  | _, .array [], _ => by
      rintro _ ⟨⟩
      exact .emptyArray (b := []) blank_nil
  | depth, .array (v :: rest), .array hItems => by
      intro s h
      simp only [render, bind_eq_ok_iff, pure_eq_ok_iff] at h
      rcases h with ⟨first, hFirst, others, hOthers, rfl⟩
      have hSpelled :=
        spellsValue_render hLayout (depth + 1) v
          (hItems v (by simp)) first hFirst
      rcases spellsItems_renderItems hLayout depth rest
          (fun w hw => hItems w (by simp [hw]))
          (hLayout.opening depth) hSpelled others hOthers with
        ⟨s, hText, hSpelled⟩
      rw [List.append_assoc, List.cons_append,
        ← List.append_assoc, hText]
      exact .array hSpelled
  | _, .object [], _ => by
      rintro _ ⟨⟩
      exact .emptyObject (b := []) blank_nil
  | depth, .object ((name, v) :: rest), .object _ hFields => by
      intro s h
      simp only [render, bind_eq_ok_iff, pure_eq_ok_iff] at h
      rcases h with ⟨first, hFirst, others, hOthers, rfl⟩
      have hSpelled :=
        spellsValue_render hLayout (depth + 1) v
          (hFields (name, v) (by simp)) first hFirst
      rcases spellsFields_renderFields hLayout depth rest
          (fun f hf => hFields f (by simp [hf])) name
          (hLayout.opening depth) hSpelled others hOthers with
        ⟨s, hText, hSpelled⟩
      rw [List.append_assoc, List.cons_append,
        ← List.append_assoc, hText]
      exact .object hSpelled

/- Printed items are spelled up to the closer of their array. -/
theorem spellsItems_renderItems
    (hLayout : layout.Separates)
    (depth : Nat)
    (items : List Value)
    (hExact : ∀ v ∈ items, v.IsExact)
    {v : Value}
    {b w : List Char}
    (hBlank : Blank b)
    (hValue : SpellsValue v w) :
    ∀ t, renderItems layout depth items = .ok t →
      ∃ s,
        b ++ w ++ t = s ++ [']'] ∧
          SpellsItems (v :: items) s := by
  match items with
  | [] =>
      rintro _ ⟨⟩
      have hElement :=
        SpellsElement.padded hBlank hValue (hLayout.closing depth)
      refine ⟨_, ?_, .last hElement⟩
      simp
  | u :: rest =>
      intro t h
      simp only [renderItems, bind_eq_ok_iff,
        pure_eq_ok_iff] at h
      rcases h with ⟨next, hNext, others, hOthers, rfl⟩
      rcases hLayout.between depth with ⟨b', hComma, hBlank'⟩
      have hSpelled :=
        spellsValue_render hLayout (depth + 1) u
          (hExact u (by simp)) next hNext
      rcases spellsItems_renderItems hLayout depth rest
          (fun w hw => hExact w (by simp [hw])) hBlank' hSpelled
          others hOthers with
        ⟨s, hText, hSpelled⟩
      refine ⟨_, ?_, .more (hValue.behind hBlank) hSpelled⟩
      simp [hComma, ← hText]

/- Printed fields are spelled up to the closer of their object. -/
theorem spellsFields_renderFields
    (hLayout : layout.Separates)
    (depth : Nat)
    (fields : List (String × Value))
    (hExact : ∀ f ∈ fields, f.2.IsExact)
    (name : String)
    {v : Value}
    {b w : List Char}
    (hBlank : Blank b)
    (hValue : SpellsValue v w) :
    ∀ t, renderFields layout depth fields = .ok t →
      ∃ s,
        b ++ fieldForm layout name w ++ t = s ++ ['\x7d'] ∧
          SpellsFields ((name, v) :: fields) s := by
  rcases hLayout.afterName with ⟨b₁, hColon, hBlank₁⟩
  have hName := spellsName_textForm hBlank name
  match fields with
  | [] =>
      rintro _ ⟨⟩
      have hElement :=
        SpellsElement.padded hBlank₁ hValue (hLayout.closing depth)
      refine ⟨_, ?_, .last hName hElement⟩
      simp [fieldForm, hColon]
  | (name', u) :: rest =>
      intro t h
      simp only [renderFields, bind_eq_ok_iff,
        pure_eq_ok_iff] at h
      rcases h with ⟨next, hNext, others, hOthers, rfl⟩
      rcases hLayout.between depth with ⟨b', hComma, hBlank'⟩
      have hSpelled :=
        spellsValue_render hLayout (depth + 1) u
          (hExact (name', u) (by simp)) next hNext
      rcases spellsFields_renderFields hLayout depth rest
          (fun f hf => hExact f (by simp [hf])) name' hBlank'
          hSpelled others hOthers with
        ⟨s, hText, hSpelled⟩
      refine
        ⟨_, ?_, .more hName (hValue.behind hBlank₁) hSpelled⟩
      simp [fieldForm, hColon, hComma, ← hText]

end

end

end Json

end CommentLint
