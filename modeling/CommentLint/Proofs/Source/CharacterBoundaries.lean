import CommentLint.Proofs.Lexer.Partition
import CommentLint.Proofs.Rule.GluedComments
import CommentLint.Proofs.Utf8.Boundary
import Mathlib.Tactic.Common

/-
  Spans of encoded text keep characters whole.

  Tokens start at openers and code stops at openers and at
  blank bytes, which are all ASCII.  Every token ends next to
  a byte of ASCII or at the end.  So no span starts or ends
  inside a character, whatever the lexer skips in between.

  Key definitions include:
    * `Span.IsWhole`

  Key results include:
    * `Lexer.Scans.isWhole`
    * `Span.IsWhole.exists_spanText?`
    * `SourceFile.tokenized_spans_resolve`
-/

namespace CommentLint

open Utf8

variable {d : Dialect}
variable {text : List Char}
variable {pos width : Nat}

------------------------------------------------------------
-- Ends of Pieces
------------------------------------------------------------

namespace Lexer

/- A blank byte is one of ASCII. -/
theorem lt_of_isBlank
    {b : UInt8}
    (h : Ascii.isBlank b = true) :
    b < 0x80 := by
  simp only [Ascii.isBlank, Bool.or_eq_true, beq_iff_eq,
    Bool.and_eq_true, decide_eq_true_eq,
    UInt8.le_iff_toNat_le, ← UInt8.toNat_inj] at h
  rw [UInt8.lt_iff_toNat_lt]
  simp at h ⊢
  omega

/- A token starts between characters. -/
theorem isBoundary_of_token?
    {kind : SpanKind}
    (h :
      token? d ((encode text).drop pos) = some (kind, width)) :
    IsBoundary text pos := by
  rcases (lexeme_of_token? h).opens.exists_first with
    ⟨b, hAscii, hByte⟩
  rw [List.getElem?_drop] at hByte
  exact isBoundary_of_ascii hByte hAscii

/- A token ends between characters. -/
theorem isBoundary_of_token?_end
    {kind : SpanKind}
    (h :
      token? d ((encode text).drop pos) = some (kind, width)) :
    IsBoundary text (pos + width) := by
  have hEnds := (lexeme_of_token? h).endsInside
  rcases hEnds.ascii with hEnd | ⟨b, hAscii, hByte | hByte⟩
  · rcases width_of_token? h with ⟨hPos, hIn⟩
    rw [List.length_drop] at hEnd
    have hLength : pos + width = (encode text).length := by
      omega
    rw [hLength]
    exact isBoundary_length text
  · rw [List.getElem?_drop] at hByte
    exact isBoundary_of_ascii hByte hAscii
  · rw [List.getElem?_drop] at hByte
    have hNext := isBoundary_succ_of_ascii hByte hAscii
    have hPos := hEnds.pos
    rwa [show pos + (width - 1) + 1 = pos + width by omega]
      at hNext

/- A blank byte starts between characters. -/
theorem IsBlankAt.isBoundary
    (h : IsBlankAt d (encode text) pos) :
    IsBoundary text pos := by
  rcases h with ⟨_, b, hByte, hBlank⟩
  exact isBoundary_of_ascii hByte (lt_of_isBlank hBlank)

/- A blank byte ends between characters. -/
theorem IsBlankAt.isBoundary_succ
    (h : IsBlankAt d (encode text) pos) :
    IsBoundary text (pos + 1) := by
  rcases h with ⟨_, b, hByte, hBlank⟩
  exact isBoundary_succ_of_ascii hByte (lt_of_isBlank hBlank)

/- What follows a run of plain bytes starts between characters. -/
theorem Scans.isBoundary_of_not_isPlainAt
    {spans : List Span}
    (h : Scans d (encode text) pos spans)
    (hPlain : ¬ IsPlainAt d (encode text) pos) :
    IsBoundary text pos := by
  cases h with
  | stop => exact isBoundary_length text
  | token hToken => exact isBoundary_of_token? hToken
  | blank hBlank => exact hBlank.isBoundary
  | code hLt hRun =>
      exact absurd (hRun pos (Nat.le_refl pos) hLt) hPlain

end Lexer

------------------------------------------------------------
-- Spans
------------------------------------------------------------

/- A span starts and ends between the characters of a text. -/
def Span.IsWhole
    (s : Span)
    (text : List Char) : Prop :=
  ∃ m n : Nat,
    s.offset = m ∧ s.stop = n ∧
      IsBoundary text m ∧ IsBoundary text n

namespace Lexer

/- A run from between characters takes spans of characters. -/
theorem Scans.isWhole
    {spans : List Span}
    {s : Span}
    (h : Scans d (encode text) pos spans)
    (hPos : IsBoundary text pos)
    (hMem : s ∈ spans) :
    s.IsWhole text := by
  induction h with
  | stop => cases hMem
  | @token pos width kind spans hToken _ ih =>
      have hNext := isBoundary_of_token?_end hToken
      rcases List.mem_cons.mp hMem with rfl | hLater
      · exact
          ⟨pos, pos + width, rfl, by simp [Span.stop], hPos, hNext⟩
      · exact ih hNext hLater
  | blank hBlank _ ih => exact ih hBlank.isBoundary_succ hMem
  | @code pos next spans hLt hRun hPlain hRest ih =>
      have hNext := hRest.isBoundary_of_not_isPlainAt hPlain
      rcases List.mem_cons.mp hMem with rfl | hLater
      · have hStop :
            Span.stop ⟨.code, pos, (next - pos : Nat)⟩ = next := by
          simp only [Span.stop]
          omega
        exact ⟨pos, next, rfl, hStop, hPos, hNext⟩
      · exact ih hNext hLater

end Lexer

------------------------------------------------------------
-- Text of Spans
------------------------------------------------------------

/- A whole span of encoded text gives text. -/
theorem Span.IsWhole.exists_spanText?
    {f : SourceFile}
    {s : Span}
    (h : s.IsWhole text)
    (hData : f.data = encode text)
    (hLength : 0 ≤ s.length) :
    ∃ t, f.spanText? s = some t := by
  rcases h with ⟨m, n, hOffset, hStop, hm, hn⟩
  have hEnd := hn.le_length
  have hSize : s.length = (n - m : Nat) := by
    unfold Span.stop at hStop
    omega
  have hLe : m ≤ n := by
    unfold Span.stop at hStop
    omega
  rcases exists_encode_eq_slice hm hn hLe with ⟨t, hText⟩
  refine ⟨t, SourceFile.spanText?_eq_some_iff.mpr ?_⟩
  refine ⟨by omega, hLength, ?_, ?_⟩
  · rw [hStop, hData]
    exact_mod_cast hEnd
  · rw [hData, hOffset, hSize]
    exact hText

/- Comments that give text leave nothing unresolved. -/
theorem CommentSpacing.unresolved_eq_nil
    {f : SourceFile}
    (hText : ∀ s ∈ f.spans, ∃ t, f.spanText? s = some t)
    (severity : Severity) :
    (CommentSpacing.rule severity).unresolved f = [] := by
  unfold Rule.unresolved
  rw [List.filterMap_eq_nil_iff]
  intro finding hFinding
  rcases List.mem_filterMap.mp hFinding with
    ⟨s, hComment, hFound⟩
  rcases hText s (List.mem_of_mem_filter hComment) with
    ⟨t, hSpan⟩
  unfold CommentSpacing.finding? at hFound
  rw [hSpan] at hFound
  rcases Option.map_eq_some_iff.mp hFound with ⟨g, _, rfl⟩
  rfl

------------------------------------------------------------
-- Tokenized Files
------------------------------------------------------------

/-
  In valid text no span of the lexer splits a character, so
  that each gives text and the rule passes over none.
-/
theorem SourceFile.tokenized_spans_resolve
    {f : SourceFile}
    {d : Dialect}
    {text : List Char}
    (hText : decode? f.data = some text)
    (hSpans : f.spans = Lexer.tokenize d f.data)
    (severity : Severity) :
    (∀ s ∈ f.spans, s.IsWhole text) ∧
      (∀ s ∈ f.spans, ∃ t, f.spanText? s = some t) ∧
      (CommentSpacing.rule severity).unresolved f = [] := by
  have hData : f.data = encode text :=
    decode?_eq_some_iff.mp hText
  have hScans : Lexer.Scans d (encode text) 0 f.spans := by
    rw [hSpans, hData]
    exact Lexer.scans_tokenize d (encode text)
  have hWhole : ∀ s ∈ f.spans, s.IsWhole text :=
    fun s hMem => hScans.isWhole (isBoundary_zero text) hMem
  have hGives : ∀ s ∈ f.spans, ∃ t, f.spanText? s = some t := by
    intro s hMem
    have hLength := (hScans.bounds hMem).2.1
    exact (hWhole s hMem).exists_spanText? hData (by omega)
  exact
    ⟨hWhole, hGives,
      CommentSpacing.unresolved_eq_nil hGives severity⟩

/- A backslash may hide the first byte of two in a string. -/
theorem SourceFile.tokenized_spans_resolve_accent :
    let f :=
      SourceFile.ofBytes [0x27, 0x5C, 0xC3, 0xA9, 0x27] "a.js"
        none none
    ∃ text,
      decode? f.data = some text ∧
        (∀ s ∈ f.spans, s.IsWhole text) ∧
        (∀ s ∈ f.spans, ∃ t, f.spanText? s = some t) ∧
        (CommentSpacing.rule .warning).unresolved f = [] :=
  ⟨_, rfl, SourceFile.tokenized_spans_resolve rfl rfl .warning⟩

end CommentLint
