import CommentLint.Proofs.Lexer.CharacterLiteral
import CommentLint.Proofs.Lexer.Partition
import CommentLint.Proofs.Lexer.LexemeUnique
import Mathlib.Tactic.Common

/-
  Cutting source behind a line feed that no token covers.

  What stands behind the line feed does not reach the tokens
  in front of it, and the lexer starts afresh behind it.  So
  the two sides of the cut may be read on their own.

  Key definitions include:
    * `Span.shift`

  Key results include:
    * `Lexer.Lexeme.replace_rest`
    * `Lexer.Scans.cut`
    * `Lexer.tokenize_append`
-/

namespace CommentLint

/- A span that stands a number of bytes further on. -/
def Span.shift
    (n : Nat)
    (s : Span) : Span :=
  { s with offset := s.offset + n }

namespace Lexer

open Ascii

------------------------------------------------------------
-- What Stands in Front of a Line Feed
------------------------------------------------------------

section Front

variable {t rest rest' : Bytes}
variable {kind : SpanKind}
variable {width : Nat}

/- Bytes without a line feed stand in front of one. -/
theorem prefix_append_lineFeed_iff
    {p : Bytes}
    (hLine : lineFeed ∉ p) :
    p <+: t ++ lineFeed :: rest ↔ p <+: t := by
  constructor
  · intro h
    rcases Nat.le_total p.length t.length with hLe | hLe
    · exact
        List.prefix_of_prefix_length_le h
          (List.prefix_append t _) hLe
    · -- Longer bytes would hold the line feed.
      have hFront : t <+: p :=
        List.prefix_of_prefix_length_le
          (List.prefix_append t _) h hLe
      rcases hFront with ⟨tail, rfl⟩
      rw [List.prefix_append_right_inj] at h
      cases tail with
      | nil => simp
      | cons b tail =>
          rw [List.cons_prefix_cons] at h
          exact absurd (by simp [h.1]) hLine
  · intro h
    exact h.trans (List.prefix_append t _)

/- Such bytes stay when what follows the line feed is replaced. -/
theorem prefix_replace_rest
    {p : Bytes}
    (hLine : lineFeed ∉ p)
    (rest' : Bytes)
    (h : p <+: t ++ lineFeed :: rest) :
    p <+: t ++ lineFeed :: rest' := by
  rw [prefix_append_lineFeed_iff hLine] at h ⊢
  exact h

/- Dropping bytes in front of the line feed keeps it. -/
theorem drop_append_lineFeed
    {n : Nat}
    (hn : n ≤ t.length)
    (rest : Bytes) :
    (t ++ lineFeed :: rest).drop n =
      t.drop n ++ lineFeed :: rest :=
  List.drop_append_of_le_length hn

/- The bytes up to the line feed do not hang on what follows. -/
theorem getElem?_replace_rest
    {n : Nat}
    (hn : n ≤ t.length)
    (rest rest' : Bytes) :
    (t ++ lineFeed :: rest)[n]? =
      (t ++ lineFeed :: rest')[n]? := by
  rcases Nat.eq_or_lt_of_le hn with rfl | hLt
  · simp
  · rw [List.getElem?_append_left hLt,
      List.getElem?_append_left hLt]

/-
  An end that is found before a bound is the end of any search
  that agrees with the first one up to the bound.
-/
theorem EndsFrom.transfer
    {start bound total total' : Nat}
    {P P' : Nat → Prop}
    {past past' : Nat → Nat}
    (h : EndsFrom start P past total width)
    (hWidth : width ≤ bound)
    (hTotal : bound < total)
    (hPast : ∀ n, n ≤ past n)
    (hAgree :
      ∀ n ≤ bound, (P n ↔ P' n) ∧ past n = past' n) :
    EndsFrom start P' past' total' width := by
  cases h with
  | @found n hFirst =>
      rcases hFirst with ⟨hFrom, hAt, hBefore⟩
      have hn : n ≤ bound := Nat.le_trans (hPast n) hWidth
      rw [(hAgree n hn).2]
      refine
        EndsFrom.found ⟨hFrom, (hAgree n hn).1.mp hAt, ?_⟩
      intro m hLe hLt hEarlier
      have hm : m ≤ bound := by omega
      exact hBefore m hLe hLt ((hAgree m hm).1.mpr hEarlier)
  | missing _ => omega

/- A line comment in front of the line feed keeps its end. -/
theorem EndsLine.replace_rest
    (rest' : Bytes)
    (h : EndsLine (t ++ lineFeed :: rest) width) :
    EndsLine (t ++ lineFeed :: rest') width := by
  rcases h with ⟨n, hEnds, rfl⟩
  have hFeed :
      (t ++ lineFeed :: rest)[t.length]? = some lineFeed := by
    simp
  have hn : n ≤ t.length := by
    cases hEnds with
    | found hFirst =>
        by_contra hFar
        exact
          hFirst.2.2 t.length (Nat.zero_le _)
            (Nat.lt_of_not_le hFar) hFeed
    | missing hNone =>
        exact absurd hFeed (hNone _ (Nat.zero_le _))
  refine
    ⟨n,
      hEnds.transfer hn (by simp) (fun _ => Nat.le_refl _) ?_,
      ?_⟩
  · intro m hm
    rw [getElem?_replace_rest hm rest rest']
    exact ⟨Iff.rfl, rfl⟩
  · rw [getElem?_replace_rest (by omega) rest rest']

/- So does text that ends through a closer. -/
theorem EndsThrough.replace_rest
    {closer : Bytes}
    {start : Nat}
    (hLine : lineFeed ∉ closer)
    (rest' : Bytes)
    (hWidth : width ≤ t.length)
    (h : EndsThrough closer start (t ++ lineFeed :: rest) width) :
    EndsThrough closer start (t ++ lineFeed :: rest') width := by
  refine
    EndsFrom.transfer h hWidth (by simp)
      (fun n => Nat.le_add_right n _) ?_
  intro n hn
  refine ⟨?_, rfl⟩
  rw [drop_append_lineFeed hn, drop_append_lineFeed hn,
    prefix_append_lineFeed_iff hLine,
    prefix_append_lineFeed_iff hLine]

/- So does quoted text. -/
theorem EndsQuoted.replace_rest
    {mark : UInt8}
    {escapes multiline : Bool}
    {start : Nat}
    (rest' : Bytes)
    (hWidth : width ≤ t.length)
    (h :
      EndsQuoted mark escapes multiline start
        (t ++ lineFeed :: rest) width) :
    EndsQuoted mark escapes multiline start
      (t ++ lineFeed :: rest') width := by
  refine EndsFrom.transfer h hWidth (by simp) ?_ ?_
  · intro n
    split <;> omega
  · intro n hn
    unfold ClosesText Escaped
    rw [getElem?_replace_rest hn rest rest',
      List.take_append_of_le_length hn,
      List.take_append_of_le_length hn]
    exact ⟨Iff.rfl, rfl⟩

/- A line feed is part of no mark, so marks split there. -/
theorem blockMarks_append_lineFeed
    (passed : Nat)
    (t rest : Bytes) :
    blockMarks passed (t ++ lineFeed :: rest) =
      blockMarks passed t ++
        blockMarks (passed + t.length + 1) rest := by
  have hSlash : lineFeed ≠ slash := by decide
  have hStar : lineFeed ≠ star := by decide
  have hNone :
      ∀ passed rest,
        blockMarks passed (lineFeed :: rest) =
          blockMarks (passed + 1) rest := by
    intro passed rest
    cases rest with
    | nil => rfl
    | cons b rest => simp [blockMarks, hSlash, hStar]
  induction passed, t using blockMarks.induct with
  | case1 passed => exact hNone passed rest
  | case2 passed a =>
      simp [blockMarks, hSlash, hStar, hNone, Nat.add_assoc]
  | case3 passed a b t hOpener ih =>
      rw [List.cons_append, List.cons_append, blockMarks,
        if_pos hOpener, ih, blockMarks, if_pos hOpener]
      simp only [List.length_cons, List.cons_append]
      rw [show passed + 2 + t.length + 1 =
        passed + (t.length + 1 + 1) + 1 by omega]
  | case4 passed a b t hOpener hCloser ih =>
      rw [List.cons_append, List.cons_append, blockMarks,
        if_neg hOpener, if_pos hCloser, ih, blockMarks,
        if_neg hOpener, if_pos hCloser]
      simp only [List.length_cons, List.cons_append]
      rw [show passed + 2 + t.length + 1 =
        passed + (t.length + 1 + 1) + 1 by omega]
  | case5 passed a b t hOpener hCloser ih =>
      rw [List.cons_append, List.cons_append, blockMarks,
        if_neg hOpener, if_neg hCloser, ← List.cons_append, ih,
        blockMarks, if_neg hOpener, if_neg hCloser]
      simp only [List.length_cons]
      rw [show passed + 1 + (t.length + 1) + 1 =
        passed + (t.length + 1 + 1) + 1 by omega]

/- A closer in front of the line feed stays paired. -/
theorem Balances.replace_rest
    {n : Nat}
    (rest' : Bytes)
    (hn : n < t.length)
    (h : Balances (t ++ lineFeed :: rest) n) :
    Balances (t ++ lineFeed :: rest') n := by
  rcases h with ⟨inner, after, hMarks, hPaired⟩
  rw [blockMarks_append_lineFeed] at hMarks
  have hBehind :
      (n, .closer) ∉ blockMarks (0 + t.length + 1) rest := by
    intro hMem
    have hLe := (bytes_of_mem_blockMarks hMem).1
    omega
  have hFront :
      ∃ more,
        blockMarks 0 t =
          (0, .opener) :: inner ++ (n, .closer) :: more := by
    rcases List.append_eq_append_iff.mp hMarks with
      ⟨more, _, hRest⟩ | ⟨more, hFirst, hRest⟩
    · rw [hRest] at hBehind
      simp at hBehind
    · cases more with
      | nil =>
          rw [List.nil_append] at hRest
          rw [← hRest] at hBehind
          simp at hBehind
      | cons mark more =>
          cases hRest
          exact ⟨more, hFirst⟩
  rcases hFront with ⟨more, hFirst⟩
  refine
    ⟨inner,
      more ++ blockMarks (0 + t.length + 1) rest', ?_, hPaired⟩
  rw [blockMarks_append_lineFeed, hFirst]
  simp

/- A block comment that nests keeps its end. -/
theorem EndsBalanced.replace_rest
    (rest' : Bytes)
    (hWidth : width ≤ t.length)
    (h : EndsBalanced (t ++ lineFeed :: rest) width) :
    EndsBalanced (t ++ lineFeed :: rest') width := by
  rcases h with ⟨n, hBalances, rfl⟩ | ⟨_, rfl⟩
  · exact
      Or.inl ⟨n, hBalances.replace_rest rest' (by omega), rfl⟩
  · rw [List.length_append, List.length_cons] at hWidth
    omega

/- The slashes that lead do not hang on what follows. -/
theorem LineKind.replace_rest
    (rest' : Bytes)
    (h : LineKind (t ++ lineFeed :: rest) kind) :
    LineKind (t ++ lineFeed :: rest') kind := by
  have hLine : ∀ n, lineFeed ∉ List.replicate n slash := by
    intro n hMem
    exact absurd (List.eq_of_mem_replicate hMem) (by decide)
  have hLe :
      ∀ r r',
        leadingSlashes (t ++ lineFeed :: r) ≤
          leadingSlashes (t ++ lineFeed :: r') := by
    intro r r'
    rw [← replicate_slash_prefix_iff]
    exact
      prefix_replace_rest (hLine _) r'
        (replicate_slash_prefix_iff.mpr (Nat.le_refl _))
  have hSlashes :
      leadingSlashes (t ++ lineFeed :: rest) =
        leadingSlashes (t ++ lineFeed :: rest') :=
    Nat.le_antisymm (hLe rest rest') (hLe rest' rest)
  cases h with
  | doc hThree => exact LineKind.doc (hSlashes ▸ hThree)
  | plain hOther => exact LineKind.plain (hSlashes ▸ hOther)

/- Nor do the first bytes of a block comment. -/
theorem BlockKind.replace_rest
    (rest' : Bytes)
    (h : BlockKind (t ++ lineFeed :: rest) kind) :
    BlockKind (t ++ lineFeed :: rest') kind := by
  have hStars : lineFeed ∉ blockOpener ++ [star] := by decide
  have hClosed : lineFeed ∉ blockOpener ++ blockCloser := by
    decide
  cases h with
  | doc hStand hOpen =>
      exact
        BlockKind.doc (prefix_replace_rest hStars rest' hStand)
          fun h => hOpen (prefix_replace_rest hClosed rest h)
  | single hNone =>
      exact
        BlockKind.single
          fun h => hNone (prefix_replace_rest hStars rest h)
  | closed hStand =>
      exact
        BlockKind.closed (prefix_replace_rest hClosed rest' hStand)

/- A character literal ends with its own apostrophe. -/
theorem characterLiteralWidth?_replace_rest
    (rest' : Bytes)
    (hWidth : width ≤ t.length)
    (h :
      characterLiteralWidth?
          ((t ++ lineFeed :: rest).drop 1) =
        some width) :
    characterLiteralWidth? ((t ++ lineFeed :: rest').drop 1) =
      some width := by
  rcases exists_of_characterLiteralWidth? h with
    ⟨body, after, hBytes, hBody, rfl⟩
  have hOne : 1 ≤ t.length := by omega
  rw [drop_append_lineFeed hOne] at hBytes ⊢
  have hFront : body ++ [apostrophe] <+: t.drop 1 := by
    have hStand :
        body ++ [apostrophe] <+:
          t.drop 1 ++ lineFeed :: rest := by
      rw [hBytes]
      exact ⟨after, by simp⟩
    apply
      List.prefix_of_prefix_length_le hStand
        (List.prefix_append _ _)
    simp
    omega
  rcases hFront with ⟨more, hMore⟩
  rw [← hMore, List.append_assoc, List.append_assoc]
  exact characterLiteralWidth?_append hBody _

/-
  A lexeme that ends in front of the line feed stays one when
  what follows the line feed is replaced.
-/
theorem Lexeme.replace_rest
    {d : Dialect}
    (rest' : Bytes)
    (hWidth : width ≤ t.length)
    (h : Lexeme d (t ++ lineFeed :: rest) kind width) :
    Lexeme d (t ++ lineFeed :: rest') kind width := by
  have hKeep :
      ∀ p, lineFeed ∉ p → p <+: t ++ lineFeed :: rest →
        p <+: t ++ lineFeed :: rest' :=
    fun p hLine => prefix_replace_rest hLine rest'
  cases h with
  | lineComment hOpener hKind hEnds =>
      exact
        Lexeme.lineComment (hKeep _ (by decide) hOpener)
          (hKind.replace_rest rest') (hEnds.replace_rest rest')
  | flatBlock hFlat hOpener hKind hEnds =>
      exact
        Lexeme.flatBlock hFlat (hKeep _ (by decide) hOpener)
          (hKind.replace_rest rest')
          (hEnds.replace_rest (by decide) rest' hWidth)
  | nestedBlock hNested hOpener hKind hEnds =>
      exact
        Lexeme.nestedBlock hNested (hKeep _ (by decide) hOpener)
          (hKind.replace_rest rest')
          (hEnds.replace_rest rest' hWidth)
  | tripleQuoted hOpener hEnds =>
      exact
        Lexeme.tripleQuoted (hKeep _ (by decide) hOpener)
          (hEnds.replace_rest (by decide) rest' hWidth)
  | quoted hOpener hSingle hEnds =>
      refine
        Lexeme.quoted (hKeep _ (by decide) hOpener) ?_
          (hEnds.replace_rest rest' hWidth)
      intro hTriple
      exact
        hSingle (prefix_replace_rest (by decide) rest hTriple)
  | apostrophes hText hOpener hEnds =>
      exact
        Lexeme.apostrophes hText (hKeep _ (by decide) hOpener)
          (hEnds.replace_rest rest' hWidth)
  | character hCharacter hOpener hLiteral =>
      exact
        Lexeme.character hCharacter
          (hKeep _ (by decide) hOpener)
          (characterLiteralWidth?_replace_rest rest' hWidth
            hLiteral)
  | backticks hEscaped hOpener hEnds =>
      exact
        Lexeme.backticks hEscaped (hKeep _ (by decide) hOpener)
          (hEnds.replace_rest rest' hWidth)
  | rawBackticks hRaw hOpener hEnds =>
      exact
        Lexeme.rawBackticks hRaw (hKeep _ (by decide) hOpener)
          (hEnds.replace_rest rest' hWidth)

end Front

------------------------------------------------------------
-- More Bytes Behind
------------------------------------------------------------

/- An opener stays one when more bytes follow. -/
theorem Opens.append
    {d : Dialect}
    {s : Bytes}
    (h : Opens d s)
    (rest : Bytes) :
    Opens d (s ++ rest) := by
  have hMore : s <+: s ++ rest := List.prefix_append s rest
  cases h with
  | lineComment hOpener =>
      exact Opens.lineComment (hOpener.trans hMore)
  | blockComment hOpener =>
      exact Opens.blockComment (hOpener.trans hMore)
  | quote hOpener => exact Opens.quote (hOpener.trans hMore)
  | apostrophe hText hOpener =>
      exact Opens.apostrophe hText (hOpener.trans hMore)
  | character hCharacter hOpener hLiteral =>
      rcases exists_of_characterLiteralWidth? hLiteral with
        ⟨body, after, hBytes, hBody, rfl⟩
      have hOpened := hOpener.trans hMore
      rcases exists_rest hOpener with ⟨tail, rfl⟩
      rw [List.drop_one, List.tail_cons] at hBytes
      subst hBytes
      apply Opens.character hCharacter hOpened
      rw [List.cons_append, List.drop_one, List.tail_cons,
        List.append_assoc]
      exact characterLiteralWidth?_append hBody _
  | backtick hBacktick hOpener =>
      exact Opens.backtick hBacktick (hOpener.trans hMore)

/- Where no token is taken, none is when bytes are missing. -/
theorem token?_eq_none_of_append
    {d : Dialect}
    (s rest : Bytes)
    (h : token? d (s ++ rest) = none) :
    token? d s = none := by
  rw [Option.eq_none_iff_forall_ne_some]
  intro t hToken
  have hOpens := (lexeme_of_token? hToken).opens
  exact not_opens_of_token? h (hOpens.append rest)

------------------------------------------------------------
-- Two Sides of a Cut
------------------------------------------------------------

/- A run over bytes is a run over them behind other bytes. -/
theorem Scans.shift
    {d : Dialect}
    {data : Bytes}
    {pos : Nat}
    {spans : List Span}
    (front : Bytes)
    (h : Scans d data pos spans) :
    Scans d (front ++ data) (front.length + pos)
      (spans.map (Span.shift front.length)) := by
  have hDrop :
      ∀ n, (front ++ data).drop (front.length + n) =
        data.drop n :=
    fun n => List.drop_length_add_append n
  have hByte :
      ∀ n, (front ++ data)[front.length + n]? = data[n]? := by
    intro n
    rw [List.getElem?_append_right (Nat.le_add_right _ _),
      Nat.add_sub_cancel_left]
  have hBlank :
      ∀ n, IsBlankAt d (front ++ data) (front.length + n) ↔
        IsBlankAt d data n := by
    intro n
    unfold IsBlankAt
    rw [hDrop, hByte]
  have hPlain :
      ∀ n, IsPlainAt d (front ++ data) (front.length + n) ↔
        IsPlainAt d data n := by
    intro n
    unfold IsPlainAt
    rw [hDrop, hByte]
  induction h with
  | stop =>
      rw [← List.length_append]
      exact Scans.stop
  | @token pos width kind spans hToken _ ih =>
      rw [← hDrop] at hToken
      rw [← Nat.add_assoc] at ih
      have hScans := Scans.token hToken ih
      rwa [Int.natCast_add, Int.add_comm] at hScans
  | blank hAt _ ih =>
      rw [← Nat.add_assoc] at ih
      exact Scans.blank ((hBlank _).mpr hAt) ih
  | @code pos next spans hLt hRun hEnds _ ih =>
      have hRun' :
          IsRun d (front ++ data) (front.length + pos)
            (front.length + next) := by
        intro n hFrom hTo
        obtain ⟨m, rfl⟩ := Nat.exists_eq_add_of_le
          (Nat.le_trans (Nat.le_add_right _ pos) hFrom)
        exact (hPlain m).mpr (hRun m (by omega) (by omega))
      have hScans :=
        Scans.code (by omega) hRun'
          (fun hAt => hEnds ((hPlain next).mp hAt)) ih
      rwa [Int.natCast_add, Int.add_comm,
        Nat.add_sub_add_left] at hScans

section Cut

variable {d : Dialect}
variable {t rest : Bytes}
variable {pos : Nat}
variable {spans : List Span}

/- No span of a list covers an offset. -/
def Spares
    (spans : List Span)
    (n : Nat) : Prop :=
  ∀ s ∈ spans, ¬ s.Covers n

instance (spans : List Span) (n : Nat) :
    Decidable (Spares spans n) := by
  unfold Spares
  infer_instance

/- A token of a run that spares a later byte ends before it. -/
theorem Scans.token_stop_le
    {data : Bytes}
    {cut width : Nat}
    {kind : SpanKind}
    (h : Scans d data pos spans)
    (hSpares : Spares spans cut)
    (hPos : pos ≤ cut)
    (hToken : token? d (data.drop pos) = some (kind, width)) :
    pos + width ≤ cut := by
  cases h with
  | stop => exact absurd hToken not_token?_length
  | token hOther _ =>
      cases hOther.symm.trans hToken
      by_contra hFar
      exact
        hSpares _ (List.mem_cons_self ..)
          (covers_mk hPos (Nat.lt_of_not_le hFar))
  | blank hBlank _ => cases hBlank.1.symm.trans hToken
  | code hLt hRun _ _ =>
      have hPlain := hRun pos (Nat.le_refl pos) hLt
      cases hPlain.1.symm.trans hToken

/-
  In front of a line feed that is spared, what follows the
  line feed does not matter for the tokens.
-/
theorem Scans.token?_eq
    (h : Scans d (t ++ lineFeed :: rest) pos spans)
    (hSpares : Spares spans t.length)
    (hPos : pos ≤ t.length) :
    token? d ((t ++ [lineFeed]).drop pos) =
      token? d ((t ++ lineFeed :: rest).drop pos) := by
  cases hToken : token? d ((t ++ lineFeed :: rest).drop pos) with
  | none =>
      rw [drop_append_lineFeed hPos] at hToken ⊢
      apply token?_eq_none_of_append _ rest
      rw [List.append_assoc, List.singleton_append]
      exact hToken
  | some found =>
      rcases found with ⟨kind, width⟩
      have hStop := h.token_stop_le hSpares hPos hToken
      rw [drop_append_lineFeed hPos] at hToken ⊢
      rw [token?_eq_some_iff] at hToken ⊢
      exact
        hToken.replace_rest [] (by rw [List.length_drop]; omega)

/- Plain bytes stay plain when what follows is cut off. -/
theorem IsPlainAt.cut
    {n : Nat}
    (hn : n ≤ t.length)
    (h : IsPlainAt d (t ++ lineFeed :: rest) n) :
    IsPlainAt d (t ++ [lineFeed]) n := by
  rcases h with ⟨hNone, hByte⟩
  rw [getElem?_replace_rest hn rest []] at hByte
  refine ⟨?_, hByte⟩
  rw [drop_append_lineFeed hn] at hNone ⊢
  apply token?_eq_none_of_append _ rest
  rw [List.append_assoc, List.singleton_append]
  exact hNone

/-
  A run that spares a line feed splits there into a run over
  the bytes up to it and the rest of the run.
-/
theorem Scans.cut
    (h : Scans d (t ++ lineFeed :: rest) pos spans)
    (hSpares : Spares spans t.length)
    (hPos : pos ≤ t.length) :
    ∃ front back,
      spans = front ++ back ∧
        Scans d (t ++ [lineFeed]) pos front ∧
        Scans d (t ++ lineFeed :: rest) (t.length + 1) back := by
  -- At each step the token or the byte taken is the same with
  -- the rest cut off, as long as the run is not past the cut.
  induction h with
  | stop =>
      rw [List.length_append, List.length_cons] at hPos
      omega
  | token hToken hRest ih =>
      have hAll := Scans.token hToken hRest
      have hStop := hAll.token_stop_le hSpares hPos hToken
      rcases ih (fun s hs => hSpares s (List.mem_cons_of_mem _ hs))
          hStop with
        ⟨front, back, rfl, hFront, hBack⟩
      rw [← hAll.token?_eq hSpares hPos] at hToken
      exact
        ⟨_ :: front, back, rfl, Scans.token hToken hFront, hBack⟩
  | @blank pos spans hBlank hRest ih =>
      have hAll := Scans.blank hBlank hRest
      have hBlankHere : IsBlankAt d (t ++ [lineFeed]) pos := by
        refine ⟨?_, ?_⟩
        · rw [hAll.token?_eq hSpares hPos]
          exact hBlank.1
        · rw [getElem?_replace_rest hPos [] rest]
          exact hBlank.2
      rcases Nat.eq_or_lt_of_le hPos with rfl | hLt
      · refine ⟨[], spans, rfl, ?_, hRest⟩
        have hStop := @Scans.stop d (t ++ [lineFeed])
        rw [List.length_append, List.length_singleton] at hStop
        exact Scans.blank hBlankHere hStop
      · rcases ih hSpares hLt with
          ⟨front, back, rfl, hFront, hBack⟩
        exact
          ⟨front, back, rfl, Scans.blank hBlankHere hFront,
            hBack⟩
  | @code pos next spans hLt hRun hEnds hRest ih =>
      have hNext : next ≤ t.length := by
        by_contra hFar
        refine hSpares _ (List.mem_cons_self ..) ?_
        exact covers_mk hPos (by omega)
      have hSparesRest : Spares spans t.length :=
        fun s hs => hSpares s (List.mem_cons_of_mem _ hs)
      rcases ih hSparesRest hNext with
        ⟨front, back, rfl, hFront, hBack⟩
      have hRunHere : IsRun d (t ++ [lineFeed]) pos next := by
        intro n hFrom hTo
        exact (hRun n hFrom hTo).cut (by omega)
      have hEndsHere : ¬ IsPlainAt d (t ++ [lineFeed]) next := by
        rintro ⟨hNone, hByte⟩
        rw [hRest.token?_eq hSparesRest hNext] at hNone
        rw [getElem?_replace_rest hNext [] rest] at hByte
        exact hEnds ⟨hNone, hByte⟩
      exact
        ⟨_ :: front, back, rfl,
          Scans.code hLt hRunHere hEndsHere hFront, hBack⟩

end Cut

/-
  Source behind a line feed that no token covers is read as if
  it stood alone, and so is the source up to the line feed.
-/
theorem tokenize_append
    (d : Dialect)
    {a : Bytes}
    (b : Bytes)
    (hLast : a.getLast? = some lineFeed)
    (hSpares : Spares (tokenize d (a ++ b)) (a.length - 1)) :
    tokenize d (a ++ b) =
      tokenize d a ++
        (tokenize d b).map (Span.shift a.length) := by
  rcases List.getLast?_eq_some_iff.mp hLast with ⟨t, rfl⟩
  have hBytes : t ++ [lineFeed] ++ b = t ++ lineFeed :: b := by
    simp
  rw [hBytes] at hSpares ⊢
  rw [List.length_append, List.length_singleton,
    Nat.add_sub_cancel] at hSpares
  rcases (scans_tokenize d (t ++ lineFeed :: b)).cut hSpares
      (Nat.zero_le _) with
    ⟨front, back, hSpans, hFront, hBack⟩
  have hShift :=
    (scans_tokenize d b).shift (t ++ [lineFeed])
  rw [hBytes, List.length_append, List.length_singleton,
    Nat.add_zero] at hShift
  rw [hSpans, hFront.eq_tokenize, hBack.unique hShift,
    List.length_append, List.length_singleton]

/-
  An escape that is open at the end of its line is no literal,
  though an apostrophe stands first on the next line.
-/
theorem tokenize_append_open_escape :
    let d := Dialect.nestingCharacter
    let a : Bytes := [apostrophe, backslash, 0x61, lineFeed]
    let b : Bytes := [apostrophe, 0x20, slash, slash, 0x78]
    a.getLast? = some lineFeed ∧
      Spares (tokenize d (a ++ b)) (a.length - 1) ∧
      tokenize d (a ++ b) =
        tokenize d a ++
          (tokenize d b).map (Span.shift a.length) :=
  ⟨rfl, by decide, tokenize_append _ _ rfl (by decide)⟩

end Lexer

end CommentLint
