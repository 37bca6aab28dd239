import CommentLint.Proofs.Lexer.LexemeBounds
import Mathlib.Tactic.Common

/-
  Runs of the lexer over bytes.

  A run takes a token where one starts, passes over blank
  bytes, and takes plain bytes together as far as they go.
  The spans of a source file are those of a run from the
  start to the end of its bytes.

  Key definitions include:
    * `Lexer.IsPlainAt`
    * `Lexer.Scans`
    * `Lexer.Finds`

  Key results include:
    * `Lexer.finds_of_isRun`
    * `Lexer.scans_tokenize`
    * `Lexer.Scans.unique`
-/

namespace CommentLint

namespace Lexer

------------------------------------------------------------
-- Runs
------------------------------------------------------------

/- No token starts at an offset, where a blank byte stands. -/
def IsBlankAt
    (d : Dialect)
    (data : Bytes)
    (n : Nat) : Prop :=
  token? d (data.drop n) = none ∧
    ∃ b, data[n]? = some b ∧ Ascii.isBlank b = true

/- No token starts at an offset, where another byte stands. -/
def IsPlainAt
    (d : Dialect)
    (data : Bytes)
    (n : Nat) : Prop :=
  token? d (data.drop n) = none ∧
    ∃ b, data[n]? = some b ∧ Ascii.isBlank b = false

/- Plain bytes stand all the way between two offsets. -/
def IsRun
    (d : Dialect)
    (data : Bytes)
    (start stop : Nat) : Prop :=
  ∀ n, start ≤ n → n < stop → IsPlainAt d data n

section Offsets

variable {d : Dialect}
variable {data : Bytes}
variable {start stop n : Nat}

theorem IsBlankAt.lt
    (h : IsBlankAt d data n) :
    n < data.length := by
  rcases h with ⟨_, b, hByte, _⟩
  exact (List.getElem?_eq_some_iff.mp hByte).1

theorem IsPlainAt.lt
    (h : IsPlainAt d data n) :
    n < data.length := by
  rcases h with ⟨_, b, hByte, _⟩
  exact (List.getElem?_eq_some_iff.mp hByte).1

/- A blank byte is no plain one. -/
theorem IsBlankAt.not_isPlainAt
    (h : IsBlankAt d data n) :
    ¬ IsPlainAt d data n := by
  rcases h with ⟨_, b, hByte, hBlank⟩
  rintro ⟨_, c, hOther, hPlain⟩
  cases hByte.symm.trans hOther
  cases hBlank.symm.trans hPlain

/- No bytes are a run. -/
theorem IsRun.empty
    (h : stop ≤ start) :
    IsRun d data start stop :=
  fun n hLe hLt => absurd (Nat.lt_of_le_of_lt hLe hLt) (by omega)

/- A run goes on with a plain byte. -/
theorem IsRun.succ
    (h : IsRun d data start stop)
    (hPlain : IsPlainAt d data stop) :
    IsRun d data start (stop + 1) := by
  intro n hLe hLt
  rcases Nat.eq_or_lt_of_le (Nat.le_of_lt_succ hLt) with
    rfl | hBefore
  · exact hPlain
  · exact h n hLe hBefore

end Offsets

/- The spans that are taken from an offset on. -/
inductive Scans
    (d : Dialect)
    (data : Bytes) :
    Nat → List Span → Prop where
| stop :
    Scans d data data.length []
| token {pos width : Nat} {kind : SpanKind} {spans : List Span} :
    token? d (data.drop pos) = some (kind, width) →
    Scans d data (pos + width) spans →
    Scans d data pos (⟨kind, pos, width⟩ :: spans)
| blank {pos : Nat} {spans : List Span} :
    IsBlankAt d data pos →
    Scans d data (pos + 1) spans →
    Scans d data pos spans
| code {pos next : Nat} {spans : List Span} :
    pos < next →
    IsRun d data pos next →
    ¬ IsPlainAt d data next →
    Scans d data next spans →
    Scans d data pos
      (⟨.code, pos, (next - pos : Nat)⟩ :: spans)

------------------------------------------------------------
-- Pending Code
------------------------------------------------------------

/- The code of a run of plain bytes, if there are any. -/
def pendingCode
    (start stop : Nat) : List Span :=
  if start = stop then []
  else [⟨.code, start, (stop - start : Nat)⟩]

/- Pending code stands behind the spans already found. -/
theorem flush_reverse
    {start stop : Nat}
    (hLe : start ≤ stop)
    (done : List Span) :
    (spansOnto.flush done stop (stop - start)).reverse =
      done.reverse ++ pendingCode start stop := by
  unfold spansOnto.flush pendingCode
  rcases Nat.eq_or_lt_of_le hLe with rfl | hLt
  · simp
  · rw [if_neg (by omega), if_neg (by omega),
      List.reverse_cons, Nat.sub_sub_self hLe]

/- A run of plain bytes that ends is taken as code. -/
theorem Scans.pending
    {d : Dialect}
    {data : Bytes}
    {start stop : Nat}
    {spans : List Span}
    (hLe : start ≤ stop)
    (hRun : IsRun d data start stop)
    (hEnds : ¬ IsPlainAt d data stop)
    (h : Scans d data stop spans) :
    Scans d data start (pendingCode start stop ++ spans) := by
  unfold pendingCode
  split
  case isTrue hNone =>
    subst hNone
    exact h
  case isFalse hSome =>
    exact Scans.code (by omega) hRun hEnds h

------------------------------------------------------------
-- The Lexer Runs
------------------------------------------------------------

/- The pieces from an offset on start with that of its byte. -/
inductive NextPiece
    (d : Dialect)
    (data : Bytes)
    (pos : Nat) : Prop where
| stop :
    pos = data.length →
    pieces d (data.drop pos) = [] →
    NextPiece d data pos
| token {kind : SpanKind} {width : Nat} :
    token? d (data.drop pos) = some (kind, width) →
    0 < width →
    pos + width ≤ data.length →
    pieces d (data.drop pos) =
      .token kind width :: pieces d (data.drop (pos + width)) →
    NextPiece d data pos
| blank :
    IsBlankAt d data pos →
    pieces d (data.drop pos) =
      .blank :: pieces d (data.drop (pos + 1)) →
    NextPiece d data pos
| plain :
    IsPlainAt d data pos →
    pieces d (data.drop pos) =
      .plain :: pieces d (data.drop (pos + 1)) →
    NextPiece d data pos

/- A token takes bytes and stays inside the bytes. -/
theorem width_of_token?
    {d : Dialect}
    {data : Bytes}
    {pos width : Nat}
    {kind : SpanKind}
    (h : token? d (data.drop pos) = some (kind, width)) :
    1 ≤ width ∧ pos + width ≤ data.length := by
  have hEnds := (lexeme_of_token? h).endsInside
  have hPos := hEnds.pos
  have hWidth := hEnds.le
  rw [List.length_drop] at hWidth
  omega

/- There is a next piece up to the end of the bytes. -/
theorem nextPiece
    (d : Dialect)
    {data : Bytes}
    {pos : Nat}
    (hLe : pos ≤ data.length) :
    NextPiece d data pos := by
  rcases Nat.eq_or_lt_of_le hLe with hStop | hLt
  · exact NextPiece.stop hStop (by simp [hStop])
  · have hDrop := List.drop_eq_getElem_cons hLt
    have hByte : data[pos]? = some data[pos] :=
      List.getElem?_eq_getElem hLt
    cases hToken : token? d (data.drop pos) with
    | some t =>
        rcases t with ⟨kind, width⟩
        rcases width_of_token? hToken with ⟨hPos, hIn⟩
        apply NextPiece.token hToken hPos hIn
        rw [hDrop] at hToken ⊢
        rw [pieces_token hToken, List.drop_drop]
        rw [show pos + 1 + (width - 1) = pos + width by omega]
    | none =>
        have hPieces :
            pieces d (data.drop pos) =
              Piece.ofByte data[pos] ::
                pieces d (data.drop (pos + 1)) := by
          rw [hDrop] at hToken ⊢
          exact pieces_plain hToken
        unfold Piece.ofByte at hPieces
        cases hBlank : Ascii.isBlank data[pos] with
        | true =>
            rw [hBlank] at hPieces
            exact
              NextPiece.blank ⟨hToken, _, hByte, hBlank⟩ hPieces
        | false =>
            rw [hBlank] at hPieces
            exact
              NextPiece.plain ⟨hToken, _, hByte, hBlank⟩ hPieces

/-
  With the bytes between two offsets pending, what is found
  behind the spans already found are the spans of a run.
-/
def Finds
    (d : Dialect)
    (data : Bytes)
    (start pos : Nat) : Prop :=
  ∀ done, ∃ spans,
    spansOnto done pos (pos - start)
        (pieces d (data.drop pos)) =
      done.reverse ++ spans ∧
    Scans d data start spans

namespace Finds

variable {d : Dialect}
variable {data : Bytes}
variable {start pos : Nat}

/- At the end of the bytes the pending code is all there is. -/
theorem stop
    (hStart : start ≤ data.length)
    (hRun : IsRun d data start data.length)
    (hPieces : pieces d (data.drop data.length) = []) :
    Finds d data start data.length := by
  intro done
  have hEnds : ¬ IsPlainAt d data data.length := by
    intro hPlain
    exact Nat.lt_irrefl _ hPlain.lt
  have hScans := Scans.pending hStart hRun hEnds Scans.stop
  rw [List.append_nil] at hScans
  refine ⟨pendingCode start data.length, ?_, hScans⟩
  rw [hPieces, spansOnto, flush_reverse hStart]

/- A token stands behind the pending code. -/
theorem token
    {kind : SpanKind}
    {width : Nat}
    (hStart : start ≤ pos)
    (hRun : IsRun d data start pos)
    (hToken : token? d (data.drop pos) = some (kind, width))
    (hPieces :
      pieces d (data.drop pos) =
        .token kind width :: pieces d (data.drop (pos + width)))
    (hNext : Finds d data (pos + width) (pos + width)) :
    Finds d data start pos := by
  intro done
  have hEnds : ¬ IsPlainAt d data pos := by
    rintro ⟨hNone, _⟩
    cases hNone.symm.trans hToken
  rcases
      hNext
        (⟨kind, pos, width⟩ ::
          spansOnto.flush done pos (pos - start)) with
    ⟨spans, hSpans, hRest⟩
  have hScans :=
    Scans.pending hStart hRun hEnds (Scans.token hToken hRest)
  rw [Nat.sub_self] at hSpans
  refine ⟨_, ?_, hScans⟩
  rw [hPieces, spansOnto, hSpans, List.reverse_cons,
    flush_reverse hStart]
  simp

/- A blank byte is left out behind the pending code. -/
theorem blank
    (hStart : start ≤ pos)
    (hRun : IsRun d data start pos)
    (hBlank : IsBlankAt d data pos)
    (hPieces :
      pieces d (data.drop pos) =
        .blank :: pieces d (data.drop (pos + 1)))
    (hNext : Finds d data (pos + 1) (pos + 1)) :
    Finds d data start pos := by
  intro done
  rcases hNext (spansOnto.flush done pos (pos - start)) with
    ⟨spans, hSpans, hRest⟩
  have hScans :=
    Scans.pending hStart hRun hBlank.not_isPlainAt
      (Scans.blank hBlank hRest)
  rw [Nat.sub_self] at hSpans
  refine ⟨_, ?_, hScans⟩
  rw [hPieces, spansOnto, hSpans, flush_reverse hStart,
    List.append_assoc]

/- A plain byte stays pending. -/
theorem plain
    (hStart : start ≤ pos)
    (hPieces :
      pieces d (data.drop pos) =
        .plain :: pieces d (data.drop (pos + 1)))
    (hNext : Finds d data start (pos + 1)) :
    Finds d data start pos := by
  intro done
  rcases hNext done with ⟨spans, hSpans, hScans⟩
  rw [Nat.sub_add_comm hStart] at hSpans
  refine ⟨spans, ?_, hScans⟩
  rw [hPieces, spansOnto]
  exact hSpans

end Finds

/- The spans of a run are found from every offset on. -/
theorem finds_of_isRun
    {d : Dialect}
    {data : Bytes}
    {start pos : Nat}
    (hStart : start ≤ pos)
    (hPos : pos ≤ data.length)
    (hRun : IsRun d data start pos) :
    Finds d data start pos := by
  -- A token may take many bytes, so the induction is on how
  -- many bytes are left.
  induction hLeft : data.length - pos using Nat.strongRecOn
    generalizing start pos with
  | ind left ih =>
      cases nextPiece d hPos with
      | stop hEnd hPieces =>
          subst hEnd
          exact Finds.stop hStart hRun hPieces
      | @token kind width hToken hWide hIn hPieces =>
          have hNone : IsRun d data (pos + width) (pos + width) :=
            IsRun.empty (Nat.le_refl _)
          have hNext :=
            ih (data.length - (pos + width)) (by omega)
              (Nat.le_refl _) hIn hNone rfl
          exact Finds.token hStart hRun hToken hPieces hNext
      | blank hBlank hPieces =>
          have hLt := hBlank.lt
          have hNone : IsRun d data (pos + 1) (pos + 1) :=
            IsRun.empty (Nat.le_refl _)
          have hNext :=
            ih (data.length - (pos + 1)) (by omega)
              (Nat.le_refl _) hLt hNone rfl
          exact Finds.blank hStart hRun hBlank hPieces hNext
      | plain hPlain hPieces =>
          have hLt := hPlain.lt
          have hNext :=
            ih (data.length - (pos + 1)) (by omega)
              (Nat.le_succ_of_le hStart) hLt
              (hRun.succ hPlain) rfl
          exact Finds.plain hStart hPieces hNext

/- The spans of a source file are those of a run over it. -/
theorem scans_tokenize
    (d : Dialect)
    (data : Bytes) :
    Scans d data 0 (tokenize d data) := by
  have hNone : IsRun d data 0 0 :=
    IsRun.empty (Nat.le_refl 0)
  have hFinds :=
    finds_of_isRun (Nat.le_refl 0) (Nat.zero_le _) hNone
  rcases hFinds [] with ⟨spans, hSpans, hScans⟩
  have hTokenize : tokenize d data = spans := hSpans
  rw [hTokenize]
  exact hScans

------------------------------------------------------------
-- One Run
------------------------------------------------------------

section Unique

variable {d : Dialect}
variable {data : Bytes}
variable {start stop stop' : Nat}

/- Plain bytes go on as far as the end of the longer run. -/
theorem IsRun.stop_le
    (hStart : start ≤ stop)
    (h : IsRun d data start stop')
    (hEnds : ¬ IsPlainAt d data stop) :
    stop' ≤ stop := by
  by_contra hFar
  exact hEnds (h stop hStart (Nat.lt_of_not_le hFar))

/- No token starts at the end. -/
theorem not_token?_length
    {kind : SpanKind}
    {width : Nat} :
    token? d (data.drop data.length) ≠ some (kind, width) := by
  intro hToken
  have hBounds := width_of_token? hToken
  omega

/- There is one run from an offset on. -/
theorem Scans.unique
    {pos : Nat}
    {spans spans' : List Span}
    (h : Scans d data pos spans)
    (h' : Scans d data pos spans') :
    spans = spans' := by
  induction h generalizing spans' with
  | stop =>
      cases h' with
      | stop => rfl
      | token hToken _ => exact absurd hToken not_token?_length
      | blank hBlank _ => exact absurd hBlank.lt (by omega)
      | code hLt hRun _ _ =>
          have hIn := (hRun _ (Nat.le_refl _) hLt).lt
          omega
  | token hToken _ ih =>
      cases h' with
      | stop => exact absurd hToken not_token?_length
      | token hOther hRest =>
          cases hToken.symm.trans hOther
          rw [ih hRest]
      | blank hBlank _ => cases hToken.symm.trans hBlank.1
      | code hLt hRun _ _ =>
          have hPlain := hRun _ (Nat.le_refl _) hLt
          cases hToken.symm.trans hPlain.1
  | blank hBlank _ ih =>
      cases h' with
      | stop => exact absurd hBlank.lt (by omega)
      | token hToken _ => cases hToken.symm.trans hBlank.1
      | blank _ hRest => exact ih hRest
      | code hLt hRun _ _ =>
          have hPlain := hRun _ (Nat.le_refl _) hLt
          exact absurd hPlain hBlank.not_isPlainAt
  | @code pos next spans hLt hRun hEnds _ ih =>
      have hPlain := hRun pos (Nat.le_refl pos) hLt
      cases h' with
      | stop => exact absurd hPlain.lt (by omega)
      | token hToken _ => cases hToken.symm.trans hPlain.1
      | blank hBlank _ =>
          exact absurd hPlain hBlank.not_isPlainAt
      | @code _ other _ hLt' hRun' hEnds' hRest =>
          have hSame : next = other :=
            Nat.le_antisymm
              (hRun.stop_le (Nat.le_of_lt hLt') hEnds')
              (hRun'.stop_le (Nat.le_of_lt hLt) hEnds)
          subst hSame
          rw [ih hRest]

/- A run over all of the bytes finds the spans of the file. -/
theorem Scans.eq_tokenize
    {spans : List Span}
    (h : Scans d data 0 spans) :
    spans = tokenize d data :=
  h.unique (scans_tokenize d data)

end Unique

end Lexer

end CommentLint
