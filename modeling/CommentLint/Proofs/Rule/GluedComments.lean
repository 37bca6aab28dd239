import CommentLint.Proofs.Source.Locations
import CommentLint.Rule.CommentSpacing
import Mathlib.Data.List.Forall2

/-
  Positions of the comments that the spacing rule flags.

  Spans may come from anywhere.  The rule flags the line
  comments whose range lies in the file, whose bytes are text
  and whose text is glued to its slashes, in their order, and
  each violation names the glued character: by its byte and
  by its place among the lines of the lenient text.

  Key definitions include:
    * `Span.Reads`
    * `Span.IsGlued`
    * `Violation.Marks`

  Key results include:
    * `CommentSpacing.violations_mark_glued`
-/

namespace CommentLint

------------------------------------------------------------
-- Text of Spans
------------------------------------------------------------

/- A span lies in the bytes, and its own bytes encode a text. -/
structure Span.Reads
    (s : Span)
    (data : Bytes)
    (text : List Char) : Prop where
  offset_nonneg : 0 ≤ s.offset
  length_nonneg : 0 ≤ s.length
  stop_le : s.stop ≤ data.length
  bytes :
    (data.drop s.offset.toNat).take s.length.toNat =
      Utf8.encode text

/- A file gives the text of a span when there is one. -/
theorem SourceFile.spanText?_eq_some_iff
    {f : SourceFile}
    {s : Span}
    {text : List Char} :
    f.spanText? s = some text ↔ s.Reads f.data text := by
  unfold SourceFile.spanText? SourceFile.substring?
  constructor
  · intro h
    split at h
    · cases h
    · exact
        ⟨by omega, by omega, by unfold Span.stop; omega,
          Utf8.decode?_eq_some_iff.mp h⟩
  · intro h
    have hOffset := h.offset_nonneg
    have hLength := h.length_nonneg
    have hStop := h.stop_le
    unfold Span.stop at hStop
    rw [if_neg (by omega)]
    exact Utf8.decode?_eq_some_iff.mpr h.bytes

------------------------------------------------------------
-- Glued Text
------------------------------------------------------------

/- Slashes lead a text up to its first other character. -/
theorem Glued.exists_eq_replicate_append (text : List Char) :
    ∃ n rest,
      slashes text = n ∧
        text = List.replicate n '/' ++ rest ∧
          rest.head? ≠ some '/' := by
  induction text with
  | nil => exact ⟨0, [], rfl, rfl, by simp⟩
  | cons c text ih =>
      by_cases hSlash : c = '/'
      · rcases ih with ⟨n, rest, hCount, hText, hHead⟩
        refine ⟨n + 1, rest, ?_, ?_, hHead⟩
        · rw [← hCount]
          simp [slashes, hSlash]
        · rw [hSlash, hText, List.replicate_succ,
            List.cons_append]
      · exact
          ⟨0, c :: text, by simp [slashes, hSlash], rfl,
            by simpa using hSlash⟩

/- Glued text is two or three slashes and a glued character. -/
theorem Glued.of_find?_eq_some
    {text : List Char}
    {g : Glued}
    (h : Glued.find? text = some g) :
    ∃ c rest,
      text = List.replicate g.offset '/' ++ c :: rest ∧
        2 ≤ g.offset ∧ g.offset ≤ 3 ∧
          c ≠ '/' ∧ isSpacing c = false := by
  rcases Glued.exists_eq_replicate_append text with
    ⟨n, rest, hCount, hText, hHead⟩
  have hDrop : text.drop n = rest := by
    rw [hText]
    simp
  unfold Glued.find? at h
  simp only [hCount, hDrop] at h
  split at h
  · cases h
  · rename_i hRange
    cases rest with
    | nil => cases h
    | cons c rest =>
        simp only [Option.ite_none_left_eq_some,
          Option.some.injEq] at h
        rcases h with ⟨hSpacing, rfl⟩
        have hOffset :
            Glued.offset
              ⟨0, n + c.utf8Size, c.utf8Size⟩ = n := by
          simp [Glued.offset]
        rw [hOffset]
        exact
          ⟨c, rest, hText, by omega, by omega,
            by simpa using hHead, by simpa using hSpacing⟩

------------------------------------------------------------
-- Glued Comments
------------------------------------------------------------

/- A line comment in the file whose text is glued to its slashes. -/
def SourceFile.IsGlued
    (f : SourceFile)
    (s : Span) : Prop :=
  (s.kind = .comment ∨ s.kind = .docComment) ∧
    ∃ text, s.Reads f.data text ∧ (Glued.find? text).isSome

namespace CommentSpacing

/- The offset that the rule flags in a span. -/
def flagged?
    (f : SourceFile)
    (s : Span) : Option Int :=
  if s.kind.isLineComment then
    (f.spanText? s).bind fun text =>
      (Glued.find? text).map fun g => s.offset + g.offset
  else none

/- The rule goes through the spans in their order. -/
theorem violations_eq_filterMap
    (severity : Severity)
    (f : SourceFile) :
    (rule severity).violations f =
      f.spans.filterMap fun s =>
        (flagged? f s).map ((rule severity).violationAt f) := by
  unfold Rule.violations
  change List.filterMap _ (findings f) = _
  unfold findings Span.comments
  rw [List.filterMap_filterMap, List.filterMap_filter]
  apply List.filterMap_congr
  intro s _
  unfold flagged? finding?
  by_cases hLine : s.kind.isLineComment = true
  · rw [if_pos hLine, if_pos hLine]
    cases f.spanText? s with
    | none => rfl
    | some text =>
        cases hFind : Glued.find? text <;> simp [hFind]
  · rw [if_neg hLine, if_neg hLine]
    rfl

/- What the rule flags is the glued character of a line comment. -/
theorem flagged?_eq_some_iff
    {f : SourceFile}
    {s : Span}
    {offset : Int} :
    flagged? f s = some offset ↔
      (s.kind = .comment ∨ s.kind = .docComment) ∧
        ∃ text g,
          s.Reads f.data text ∧ Glued.find? text = some g ∧
            s.offset + g.offset = offset := by
  have hKind :
      (s.kind = .comment ∨ s.kind = .docComment) ↔
        s.kind.isLineComment = true := by
    simp [SpanKind.isLineComment]
  unfold flagged?
  rw [hKind]
  by_cases hLine : s.kind.isLineComment = true
  · rw [if_pos hLine]
    simp only [Option.bind_eq_some_iff, Option.map_eq_some_iff,
      SourceFile.spanText?_eq_some_iff, hLine, true_and]
    constructor
    · rintro ⟨text, hReads, g, hFind, hOffset⟩
      exact ⟨text, g, hReads, hFind, hOffset⟩
    · rintro ⟨text, g, hReads, hFind, hOffset⟩
      exact ⟨text, hReads, g, hFind, hOffset⟩
  · rw [if_neg hLine]
    simp [hLine]

/- The rule flags something in the glued comments only. -/
theorem isSome_flagged?_iff
    {f : SourceFile}
    {s : Span} :
    (flagged? f s).isSome = true ↔ f.IsGlued s := by
  simp only [Option.isSome_iff_exists, flagged?_eq_some_iff,
    SourceFile.IsGlued]
  constructor
  · rintro ⟨offset, hKind, text, g, hReads, hFind, hOffset⟩
    exact ⟨hKind, text, hReads, g, hFind⟩
  · rintro ⟨hKind, text, hReads, g, hFind⟩
    exact ⟨_, hKind, text, g, hReads, hFind, rfl⟩

end CommentSpacing

instance (f : SourceFile) (s : Span) :
    Decidable (f.IsGlued s) :=
  decidable_of_iff _ CommentSpacing.isSome_flagged?_iff

------------------------------------------------------------
-- Positions of Glued Characters
------------------------------------------------------------

namespace SourceFile

open Ascii

/-
  The line and the column of a character behind two slashes
  lead to it in the lenient text, and to the slashes.
-/
theorem textLines_getElem?_of_slashes
    {f : SourceFile}
    {a rest : Bytes}
    {c : Char}
    (hData :
      f.data =
        a ++ [slash, slash] ++ (String.utf8EncodeChar c ++ rest))
    (hNewline : c ≠ '\n') :
    f.textLines[a.count lineFeed]? =
      some (Utf8.decodeLenient (lastLine a) ++
        '/' :: '/' :: c :: Utf8.decodeLenient (firstLine rest)) := by
  have hCount :
      (a ++ [slash, slash]).count lineFeed = a.count lineFeed := by
    rw [List.count_append]
    rfl
  have hLast :
      lastLine (a ++ [slash, slash]) =
        lastLine a ++ Utf8.encode ['/', '/'] :=
    lastLine_append a (by decide)
  have hFirst :
      firstLine (String.utf8EncodeChar c ++ rest) =
        Utf8.encode [c] ++ firstLine rest := by
    rw [firstLine_append
      (Utf8.lineFeed_not_mem_encodeChar hNewline)]
    simp
  have hFresh := Utf8.isFresh_encodeChar_append c rest
  rw [← hCount, textLines_getElem? hData hFresh, hLast, hFirst,
    Utf8.decodeLenient_encode_append,
    Utf8.decodeLenient_append_encode]
  simp

/- The location of a place behind two slashes. -/
theorem location_of_slashes
    {f : SourceFile}
    {a rest : Bytes}
    (hData : f.data = a ++ [slash, slash] ++ rest) :
    f.location ((a.length + 2 : Nat) : Int) =
      { path := f.path
        offset := (a.length + 2 : Nat)
        line := (a.count lineFeed : Nat) + 1
        column :=
          ((Utf8.decodeLenient (lastLine a)).length : Nat) + 3 } := by
  have hBefore :
      f.data.take (a.length + 2) = a ++ Utf8.encode ['/', '/'] := by
    rw [hData]
    exact List.take_left' (by simp)
  have hNone : lineFeed ∉ Utf8.encode ['/', '/'] := by
    decide
  rw [location_natCast, hBefore]
  unfold columnAfter
  simp only [Location.mk.injEq, true_and]
  constructor
  · rw [List.count_append, List.count_eq_zero.mpr hNone]
    rfl
  · rw [lastLine_append a hNone,
      Utf8.decodeLenient_append_encode, List.length_append]
    rfl

end SourceFile

------------------------------------------------------------
-- Violations and Glued Comments
------------------------------------------------------------

/-
  A violation marks the character that is glued to the slashes
  of a span: its byte lies two or three bytes into the span,
  and its line and column lead to it in the lenient text,
  directly behind two slashes.
-/
structure Violation.Marks
    (v : Violation)
    (f : SourceFile)
    (s : Span) : Prop where
  lower : s.offset + 2 ≤ v.location.offset
  upper : v.location.offset ≤ s.offset + 3
  inside : v.location.offset < f.data.length
  shown :
    ∃ (line column : Nat) (text : List Char) (c : Char),
      v.location.line = line + 1 ∧
        v.location.column = column + 3 ∧
        f.textLines[line]? = some text ∧
        text[column]? = some '/' ∧
        text[column + 1]? = some '/' ∧
        text[column + 2]? = some c ∧
        String.utf8EncodeChar c <+:
          f.data.drop v.location.offset.toNat ∧
        c ≠ '/' ∧ isSpacing c = false

namespace CommentSpacing

open Ascii

/- Slashes take a byte each. -/
theorem length_encode_slashes (n : Nat) :
    (Utf8.encode (List.replicate n '/')).length = n := by
  induction n with
  | zero => rfl
  | succ n ih =>
      rw [List.replicate_succ, Utf8.encode_cons,
        List.length_append, ih, Nat.add_comm]
      rfl

/-
  The bytes around a glued character: what comes before its
  last two slashes, and what comes after it.
-/
theorem exists_split_of_flagged?
    {f : SourceFile}
    {s : Span}
    {offset : Int}
    (h : flagged? f s = some offset) :
    ∃ a c rest,
      f.data =
          a ++ [slash, slash] ++
            (String.utf8EncodeChar c ++ rest) ∧
        offset = (a.length + 2 : Nat) ∧
        s.offset + 2 ≤ offset ∧ offset ≤ s.offset + 3 ∧
        c ≠ '/' ∧ isSpacing c = false := by
  rcases flagged?_eq_some_iff.mp h with
    ⟨_, text, g, hReads, hFind, rfl⟩
  rcases Glued.of_find?_eq_some hFind with
    ⟨c, t, hText, hLow, hHigh, hSlash, hSpacing⟩
  have hOffset := hReads.offset_nonneg
  have hStop := hReads.stop_le
  have hLength := hReads.length_nonneg
  unfold Span.stop at hStop
  have hRuns :
      List.replicate g.offset '/' =
        List.replicate (g.offset - 2) '/' ++ ['/', '/'] := by
    rw [show ['/', '/'] = List.replicate 2 '/' from rfl,
      ← List.replicate_add]
    congr 1
    omega
  let start := s.offset.toNat
  let stop := start + s.length.toNat
  refine
    ⟨f.data.take start ++
        Utf8.encode (List.replicate (g.offset - 2) '/'),
      c, Utf8.encode t ++ f.data.drop stop,
      ?_, ?_, by omega, by omega, hSlash, hSpacing⟩
  · have hPair : Utf8.encode ['/', '/'] = [slash, slash] := rfl
    have hBytes := hReads.bytes
    rw [hText, hRuns, Utf8.encode_append, Utf8.encode_append,
      hPair, Utf8.encode_cons] at hBytes
    calc
      f.data =
          f.data.take start ++
            ((f.data.drop start).take s.length.toNat ++
              (f.data.drop start).drop s.length.toNat) := by
        rw [List.take_append_drop, List.take_append_drop]
      _ = _ := by
        rw [hBytes, List.drop_drop]
        simp [stop]
  · rw [List.length_append, List.length_take,
      length_encode_slashes]
    omega

/- What the rule flags is marked by its violation. -/
theorem marks_of_flagged?
    (severity : Severity)
    {f : SourceFile}
    {s : Span}
    {offset : Int}
    (h : flagged? f s = some offset) :
    ((rule severity).violationAt f offset).Marks f s := by
  rcases exists_split_of_flagged? h with
    ⟨a, c, rest, hData, rfl, hLow, hHigh, hSlash, hSpacing⟩
  have hNewline : c ≠ '\n' := by
    rintro rfl
    exact absurd hSpacing (by decide)
  have hLine := SourceFile.textLines_getElem?_of_slashes
    hData hNewline
  have hLocation := SourceFile.location_of_slashes hData
  have hDrop :
      f.data.drop (a.length + 2) =
        String.utf8EncodeChar c ++ rest := by
    rw [hData]
    exact List.drop_left' (by simp)
  have hInside : a.length + 2 < f.data.length := by
    have hPos := c.utf8Size_pos
    rw [hData]
    simp
    omega
  have hOffset :
      ((rule severity).violationAt f
        ((a.length + 2 : Nat) : Int)).location.offset =
        (a.length + 2 : Nat) :=
    SourceFile.location_offset f _
  constructor
  case lower => rwa [hOffset]
  case upper => rwa [hOffset]
  case inside =>
    rw [hOffset]
    exact_mod_cast hInside
  case shown =>
    refine
      ⟨a.count lineFeed,
        (Utf8.decodeLenient (SourceFile.lastLine a)).length,
        _, c, ?_, ?_, hLine, ?_, ?_, ?_, ?_, hSlash, hSpacing⟩
    · exact congrArg Location.line hLocation
    · exact congrArg Location.column hLocation
    · simp
    · simp
    · simp
    · rw [hOffset, Int.toNat_natCast, hDrop]
      exact List.prefix_append _ _

/- A list that is sifted twice in the same way keeps pace. -/
theorem forall₂_filter_filterMap
    {α β : Type}
    {R : α → β → Prop}
    {p : α → Prop} [DecidablePred p]
    {g : α → Option β}
    (hSome : ∀ a, (g a).isSome = true ↔ p a)
    (hRelated : ∀ a b, g a = some b → R a b)
    (l : List α) :
    List.Forall₂ R (l.filter fun a => p a) (l.filterMap g) := by
  induction l with
  | nil => exact List.Forall₂.nil
  | cons a l ih =>
      cases hValue : g a with
      | none =>
          have hNot : ¬ p a := by
            rw [← hSome, hValue]
            simp
          rw [List.filterMap_cons_none hValue,
            List.filter_cons_of_neg (by simpa using hNot)]
          exact ih
      | some b =>
          have hHolds : p a := by
            rw [← hSome, hValue]
            rfl
          rw [List.filterMap_cons_some hValue,
            List.filter_cons_of_pos (by simpa using hHolds)]
          exact List.Forall₂.cons (hRelated a b hValue) ih

/-
  The violations of the rule stand one to one, and in order,
  for the glued comments among the spans, and each marks the
  glued character of its comment.
-/
theorem violations_mark_glued
    (severity : Severity)
    (f : SourceFile) :
    List.Forall₂
      (fun s v =>
        v = (rule severity).violationAt f v.location.offset ∧
          v.Marks f s)
      (f.spans.filter fun s => f.IsGlued s)
      ((rule severity).violations f) := by
  rw [violations_eq_filterMap]
  apply forall₂_filter_filterMap
  · intro s
    rw [Option.isSome_map, isSome_flagged?_iff]
  · intro s v hViolation
    rcases Option.map_eq_some_iff.mp hViolation with
      ⟨offset, hFlagged, rfl⟩
    refine ⟨?_, marks_of_flagged? severity hFlagged⟩
    simp [Rule.violationAt]

end CommentSpacing

end CommentLint
