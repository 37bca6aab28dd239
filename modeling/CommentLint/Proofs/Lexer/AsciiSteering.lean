import CommentLint.Proofs.Lexer.CharacterLiteral
import CommentLint.Proofs.Lexer.LexemeUnique
import CommentLint.Proofs.Lexer.Partition
import Mathlib.Data.List.Forall2

/-
  What the lexer sees of bytes that are not ASCII.

  Every delimiter is ASCII, so that any other byte only takes
  up its place.  Where character literals are read it also
  tells how many bytes its character asks for.  Bytes that are
  alike in this have the same tokens, be they text or not.

  Key definitions include:
    * `Lexer.Alike`
    * `Lexer.AlikeBytes`

  Key results include:
    * `Lexer.Lexeme.of_alike`
    * `Lexer.Scans.of_alike`
    * `Lexer.tokenize_eq_of_alike`
-/

namespace CommentLint

namespace Lexer

open Ascii

variable {d : Dialect}
variable {b c m : UInt8}
variable {s s' : Bytes}
variable {n width : Nat}
variable {kind : SpanKind}

------------------------------------------------------------
-- Bytes That Are Alike
------------------------------------------------------------

/-
  Two bytes that a dialect does not tell apart.  They are the
  same byte if one of them is ASCII, and ask for characters of
  the same width where the dialect has character literals.
-/
structure Alike
    (d : Dialect)
    (b c : UInt8) : Prop where
  ascii : b < 0x80 ∨ c < 0x80 → b = c
  width :
    d.apostrophe = .character →
      characterWidth b = characterWidth c

instance (d : Dialect) (b c : UInt8) :
    Decidable (Alike d b c) :=
  decidable_of_iff
    ((b < 0x80 ∨ c < 0x80 → b = c) ∧
      (d.apostrophe = .character →
        characterWidth b = characterWidth c))
    ⟨fun h => ⟨h.1, h.2⟩, fun h => ⟨h.ascii, h.width⟩⟩

/- As many bytes, each of them alike the one in its place. -/
def AlikeBytes
    (d : Dialect)
    (s s' : Bytes) : Prop :=
  List.Forall₂ (Alike d) s s'

instance (d : Dialect) (s s' : Bytes) :
    Decidable (AlikeBytes d s s') := by
  unfold AlikeBytes
  infer_instance

/- Bytes that are all ASCII. -/
def IsAscii (p : Bytes) : Prop :=
  ∀ x ∈ p, x < 0x80

instance (p : Bytes) : Decidable (IsAscii p) :=
  List.decidableBAll _ p

namespace Alike

theorem symm
    (h : Alike d b c) :
    Alike d c b where
  ascii hAscii := (h.ascii hAscii.symm).symm
  width hCharacter := (h.width hCharacter).symm

/- Bytes that are alike are the same ASCII, if any. -/
theorem eq_iff
    (h : Alike d b c)
    (hAscii : m < 0x80) :
    b = m ↔ c = m := by
  constructor
  · rintro rfl
    exact (h.ascii (Or.inl hAscii)).symm
  · rintro rfl
    exact h.ascii (Or.inr hAscii)

/- Blank bytes are ASCII. -/
theorem isBlank_eq
    (h : Alike d b c) :
    Ascii.isBlank b = Ascii.isBlank c := by
  have hBlank : IsAscii blankBytes := by decide
  rw [Bool.eq_iff_iff, isBlank_iff_mem, isBlank_iff_mem]
  constructor
  · intro hMem
    rwa [← h.ascii (Or.inl (hBlank b hMem))]
  · intro hMem
    rwa [h.ascii (Or.inr (hBlank c hMem))]

end Alike

namespace AlikeBytes

theorem symm
    (h : AlikeBytes d s s') :
    AlikeBytes d s' s :=
  (h.imp fun _ _ hAlike => hAlike.symm).flip

/- Bytes that are alike stay so behind an offset. -/
theorem drop
    (h : AlikeBytes d s s')
    (n : Nat) :
    AlikeBytes d (s.drop n) (s'.drop n) :=
  List.forall₂_drop n h

/- So do those in front of it. -/
theorem take
    (h : AlikeBytes d s s')
    (n : Nat) :
    AlikeBytes d (s.take n) (s'.take n) :=
  List.forall₂_take n h

/- Each byte has one that is alike in its place. -/
theorem exists_getElem?
    (h : AlikeBytes d s s')
    (hByte : s[n]? = some b) :
    ∃ c, s'[n]? = some c ∧ Alike d b c := by
  unfold AlikeBytes at h
  induction h generalizing n with
  | nil => cases hByte
  | cons hAlike _ ih =>
      cases n with
      | zero =>
          cases hByte
          exact ⟨_, rfl, hAlike⟩
      | succ n => exact ih hByte

/- An ASCII byte stands at the same offsets. -/
theorem getElem?_iff
    (h : AlikeBytes d s s')
    (hAscii : m < 0x80)
    (n : Nat) :
    s[n]? = some m ↔ s'[n]? = some m := by
  have hKept :
      ∀ {s s'}, AlikeBytes d s s' →
        s[n]? = some m → s'[n]? = some m := by
    intro s s' h hByte
    rcases h.exists_getElem? hByte with ⟨c, hOther, hAlike⟩
    rwa [← (hAlike.eq_iff hAscii).mp rfl]
  exact ⟨hKept h, hKept h.symm⟩

/- ASCII bytes stand in front of both. -/
theorem prefix_iff
    {p : Bytes}
    (h : AlikeBytes d s s')
    (hAscii : IsAscii p) :
    p <+: s ↔ p <+: s' := by
  unfold AlikeBytes at h
  unfold IsAscii at hAscii
  induction p generalizing s s' with
  | nil => simp
  | cons x p ih =>
      rw [List.forall_mem_cons] at hAscii
      cases h with
      | nil => rfl
      | cons hAlike hRest =>
          rw [List.cons_prefix_cons, List.cons_prefix_cons,
            eq_comm, hAlike.eq_iff hAscii.1, eq_comm,
            ih hRest hAscii.2]

/- An ASCII byte is repeated as often in front. -/
theorem length_takeWhile
    (h : AlikeBytes d s s')
    (hAscii : m < 0x80) :
    (s.takeWhile (· == m)).length =
      (s'.takeWhile (· == m)).length := by
  unfold AlikeBytes at h
  induction h with
  | nil => rfl
  | @cons x y t t' hAlike _ ih =>
      have hSame := hAlike.eq_iff hAscii
      by_cases hx : x = m
      · simp [hx, hSame.mp hx, ih]
      · simp [hx, mt hSame.mpr hx]

/- As many backslashes stand at the end. -/
theorem trailingBackslashes_eq
    (h : AlikeBytes d s s') :
    trailingBackslashes s = trailingBackslashes s' := by
  have hReverse : AlikeBytes d s.reverse s'.reverse :=
    List.forall₂_reverse_iff.mpr h
  exact hReverse.length_takeWhile (by decide)

/- The marks of block comments are the same. -/
theorem blockMarks_eq
    (h : AlikeBytes d s s')
    (passed : Nat) :
    blockMarks passed s = blockMarks passed s' := by
  have hSlash : slash < 0x80 := by decide
  have hStar : star < 0x80 := by decide
  unfold AlikeBytes at h
  -- Both are read in step, since each test is for ASCII bytes.
  induction passed, s using blockMarks.induct
    generalizing s' with
  | case1 passed =>
      cases h
      rfl
  | case2 passed x =>
      cases h with
      | cons hx hNone =>
          cases hNone
          rfl
  | case3 passed x y t hOpener ih =>
      rcases h with _ | ⟨hx, _ | ⟨hy, hRest⟩⟩
      rw [blockMarks, if_pos hOpener, blockMarks, ih hRest]
      rw [hx.eq_iff hSlash, hy.eq_iff hStar] at hOpener
      rw [if_pos hOpener]
  | case4 passed x y t hOpener hCloser ih =>
      rcases h with _ | ⟨hx, _ | ⟨hy, hRest⟩⟩
      rw [blockMarks, if_neg hOpener, if_pos hCloser,
        blockMarks, ih hRest]
      rw [hx.eq_iff hSlash, hy.eq_iff hStar] at hOpener
      rw [hx.eq_iff hStar, hy.eq_iff hSlash] at hCloser
      rw [if_neg hOpener, if_pos hCloser]
  | case5 passed x y t hOpener hCloser ih =>
      rcases h with _ | ⟨hx, _ | ⟨hy, hRest⟩⟩
      rw [blockMarks, if_neg hOpener, if_neg hCloser,
        blockMarks, ih (List.Forall₂.cons hy hRest)]
      rw [hx.eq_iff hSlash, hy.eq_iff hStar] at hOpener
      rw [hx.eq_iff hStar, hy.eq_iff hSlash] at hCloser
      rw [if_neg hOpener, if_neg hCloser]

end AlikeBytes

------------------------------------------------------------
-- Ends
------------------------------------------------------------

/- Searches for the same places end alike. -/
theorem EndsFrom.congr
    {start total : Nat}
    {P P' : Nat → Prop}
    {past past' : Nat → Nat}
    (h : EndsFrom start P past total width)
    (hPlaces : ∀ n, P n ↔ P' n)
    (hPast : ∀ n, past n = past' n) :
    EndsFrom start P' past' total width := by
  obtain rfl : P = P' := funext fun n => propext (hPlaces n)
  obtain rfl : past = past' := funext hPast
  exact h

/- A line ends at the same place. -/
theorem EndsLine.of_alike
    (hAlike : AlikeBytes d s s')
    (h : EndsLine s width) :
    EndsLine s' width := by
  rcases h with ⟨n, hEnds, rfl⟩
  rw [hAlike.length_eq] at hEnds
  refine ⟨n, hEnds.congr (fun m => ?_) fun _ => rfl, ?_⟩
  · exact hAlike.getElem?_iff (by decide) m
  · exact
      if_congr (hAlike.getElem?_iff (by decide) _) rfl rfl

/- A closer in ASCII is found at the same place. -/
theorem EndsThrough.of_alike
    {closer : Bytes}
    {start : Nat}
    (hAscii : IsAscii closer)
    (hAlike : AlikeBytes d s s')
    (h : EndsThrough closer start s width) :
    EndsThrough closer start s' width := by
  unfold EndsThrough at h ⊢
  rw [hAlike.length_eq] at h
  exact
    h.congr (fun n => (hAlike.drop n).prefix_iff hAscii)
      fun _ => rfl

/- Text closes at the same place, by the same escapes. -/
theorem EndsQuoted.of_alike
    {mark : UInt8}
    {escapes multiline : Bool}
    {start : Nat}
    (hAscii : mark < 0x80)
    (hAlike : AlikeBytes d s s')
    (h : EndsQuoted mark escapes multiline start s width) :
    EndsQuoted mark escapes multiline start s' width := by
  have hFeed : lineFeed < 0x80 := by decide
  unfold EndsQuoted at h ⊢
  rw [hAlike.length_eq] at h
  refine h.congr ?_ ?_
  · intro n
    unfold ClosesText Escaped
    rw [(hAlike.take n).trailingBackslashes_eq,
      hAlike.getElem?_iff hAscii n,
      hAlike.getElem?_iff hFeed n]
  · intro n
    exact if_congr (hAlike.getElem?_iff hAscii n) rfl rfl

/- A comment is balanced at the same place. -/
theorem EndsBalanced.of_alike
    (hAlike : AlikeBytes d s s')
    (h : EndsBalanced s width) :
    EndsBalanced s' width := by
  unfold EndsBalanced Balances at h ⊢
  rwa [← hAlike.blockMarks_eq 0, ← hAlike.length_eq]

------------------------------------------------------------
-- Lexemes
------------------------------------------------------------

/- The slashes that tell the kind of a line comment. -/
theorem LineKind.of_alike
    (hAlike : AlikeBytes d s s')
    (h : LineKind s kind) :
    LineKind s' kind := by
  have hSlashes : leadingSlashes s = leadingSlashes s' :=
    hAlike.length_takeWhile (by decide)
  cases h with
  | doc hThree => exact LineKind.doc (by rwa [← hSlashes])
  | plain hOther => exact LineKind.plain (by rwa [← hSlashes])

/- The stars that tell the kind of a block comment. -/
theorem BlockKind.of_alike
    (hAlike : AlikeBytes d s s')
    (h : BlockKind s kind) :
    BlockKind s' kind := by
  have hStars :
      blockOpener ++ [star] <+: s ↔
        blockOpener ++ [star] <+: s' :=
    hAlike.prefix_iff (by decide)
  have hClosed :
      blockOpener ++ blockCloser <+: s ↔
        blockOpener ++ blockCloser <+: s' :=
    hAlike.prefix_iff (by decide)
  cases h with
  | doc hDoc hOpen =>
      exact
        BlockKind.doc (hStars.mp hDoc) (mt hClosed.mpr hOpen)
  | single hNone => exact BlockKind.single (mt hStars.mpr hNone)
  | closed hEmpty => exact BlockKind.closed (hClosed.mp hEmpty)

/- A byte inside a literal is alike to such bytes only. -/
theorem IsInside.of_alike
    (hAlike : Alike d b c)
    (h : IsInside b) :
    IsInside c := by
  have hApostrophe := hAlike.eq_iff (m := apostrophe) (by decide)
  have hFeed := hAlike.eq_iff (m := lineFeed) (by decide)
  exact ⟨mt hApostrophe.mpr h.1, mt hFeed.mpr h.2⟩

/- What stands between apostrophes stays the body of a literal. -/
theorem LiteralBody.of_alike
    (hCharacter : d.apostrophe = .character)
    (hAlike : AlikeBytes d s s')
    (h : LiteralBody s) :
    LiteralBody s' := by
  cases h with
  | character hInside hPlain hWidth =>
      rcases hAlike with _ | ⟨hLead, hTail⟩
      have hBackslash :=
        hLead.eq_iff (m := backslash) (by decide)
      rw [hTail.length_eq, hLead.width hCharacter] at hWidth
      exact
        LiteralBody.character (hInside.of_alike hLead)
          (mt hBackslash.mpr hPlain) hWidth
  | escape hShort hInside =>
      rcases hAlike with _ | ⟨hFirst, _ | ⟨hEscaped, hTail⟩⟩
      rw [hTail.length_eq] at hShort
      rw [(hFirst.eq_iff (by decide)).mp rfl]
      refine LiteralBody.escape hShort ?_
      intro y hy
      rcases List.mem_iff_getElem?.mp hy with ⟨n, hByte⟩
      have hBack : AlikeBytes d _ _ := AlikeBytes.symm hTail
      rcases hBack.exists_getElem? hByte with ⟨x, hx, hSame⟩
      exact
        (hInside x (List.mem_of_getElem? hx)).of_alike hSame.symm

/- A literal is found with the same width. -/
theorem characterLiteralWidth?_of_alike
    (hCharacter : d.apostrophe = .character)
    (hAlike : AlikeBytes d s s')
    (h : characterLiteralWidth? s = some width) :
    characterLiteralWidth? s' = some width := by
  rcases exists_of_characterLiteralWidth? h with
    ⟨body, rest, rfl, hBody, rfl⟩
  have hFront := hAlike.take body.length
  have hBehind := hAlike.drop body.length
  rw [List.take_left] at hFront
  rw [List.drop_left] at hBehind
  rw [← List.take_append_drop body.length s']
  generalize s'.take body.length = body' at hFront ⊢
  generalize s'.drop body.length = rest' at hBehind ⊢
  rcases hBehind with _ | ⟨hClose, _⟩
  rw [(hClose.eq_iff (by decide)).mp rfl, hFront.length_eq]
  exact
    characterLiteralWidth?_append
      (hBody.of_alike hCharacter hFront) _

/- A lexeme of some bytes is one of bytes that are alike. -/
theorem Lexeme.of_alike
    (hAlike : AlikeBytes d s s')
    (h : Lexeme d s kind width) :
    Lexeme d s' kind width := by
  have hKeep :
      ∀ p, IsAscii p → p <+: s → p <+: s' :=
    fun p hAscii => (hAlike.prefix_iff hAscii).mp
  cases h with
  | lineComment hOpener hKind hEnds =>
      exact
        Lexeme.lineComment (hKeep _ (by decide) hOpener)
          (hKind.of_alike hAlike) (hEnds.of_alike hAlike)
  | flatBlock hFlat hOpener hKind hEnds =>
      exact
        Lexeme.flatBlock hFlat (hKeep _ (by decide) hOpener)
          (hKind.of_alike hAlike)
          (hEnds.of_alike (by decide) hAlike)
  | nestedBlock hNested hOpener hKind hEnds =>
      exact
        Lexeme.nestedBlock hNested (hKeep _ (by decide) hOpener)
          (hKind.of_alike hAlike) (hEnds.of_alike hAlike)
  | tripleQuoted hOpener hEnds =>
      exact
        Lexeme.tripleQuoted (hKeep _ (by decide) hOpener)
          (hEnds.of_alike (by decide) hAlike)
  | quoted hOpener hSingle hEnds =>
      have hTriple : tripleQuote <+: s ↔ tripleQuote <+: s' :=
        hAlike.prefix_iff (by decide)
      exact
        Lexeme.quoted (hKeep _ (by decide) hOpener)
          (mt hTriple.mpr hSingle)
          (hEnds.of_alike (by decide) hAlike)
  | apostrophes hText hOpener hEnds =>
      exact
        Lexeme.apostrophes hText (hKeep _ (by decide) hOpener)
          (hEnds.of_alike (by decide) hAlike)
  | character hCharacter hOpener hLiteral =>
      exact
        Lexeme.character hCharacter
          (hKeep _ (by decide) hOpener)
          (characterLiteralWidth?_of_alike hCharacter
            (hAlike.drop 1) hLiteral)
  | backticks hEscaped hOpener hEnds =>
      exact
        Lexeme.backticks hEscaped (hKeep _ (by decide) hOpener)
          (hEnds.of_alike (by decide) hAlike)
  | rawBackticks hRaw hOpener hEnds =>
      exact
        Lexeme.rawBackticks hRaw (hKeep _ (by decide) hOpener)
          (hEnds.of_alike (by decide) hAlike)

/- The lexer takes the same token from bytes that are alike. -/
theorem token?_eq_of_alike
    (h : AlikeBytes d s s') :
    token? d s = token? d s' := by
  apply Option.ext
  rintro ⟨kind, width⟩
  rw [token?_eq_some_iff, token?_eq_some_iff]
  exact ⟨Lexeme.of_alike h, Lexeme.of_alike h.symm⟩

------------------------------------------------------------
-- Runs
------------------------------------------------------------

/- Blank bytes stay blank where no token starts. -/
theorem IsBlankAt.of_alike
    (hAlike : AlikeBytes d s s')
    (h : IsBlankAt d s n) :
    IsBlankAt d s' n := by
  rcases h with ⟨hNone, b, hByte, hBlank⟩
  rcases hAlike.exists_getElem? hByte with ⟨c, hOther, hSame⟩
  rw [token?_eq_of_alike (hAlike.drop n)] at hNone
  rw [hSame.isBlank_eq] at hBlank
  exact ⟨hNone, c, hOther, hBlank⟩

/- Plain bytes stay plain. -/
theorem IsPlainAt.of_alike
    (hAlike : AlikeBytes d s s')
    (h : IsPlainAt d s n) :
    IsPlainAt d s' n := by
  rcases h with ⟨hNone, b, hByte, hPlain⟩
  rcases hAlike.exists_getElem? hByte with ⟨c, hOther, hSame⟩
  rw [token?_eq_of_alike (hAlike.drop n)] at hNone
  rw [hSame.isBlank_eq] at hPlain
  exact ⟨hNone, c, hOther, hPlain⟩

/- A run over some bytes is one over bytes that are alike. -/
theorem Scans.of_alike
    {pos : Nat}
    {spans : List Span}
    (hAlike : AlikeBytes d s s')
    (h : Scans d s pos spans) :
    Scans d s' pos spans := by
  induction h with
  | stop =>
      rw [hAlike.length_eq]
      exact Scans.stop
  | token hToken _ ih =>
      rw [token?_eq_of_alike (hAlike.drop _)] at hToken
      exact Scans.token hToken ih
  | blank hBlank _ ih =>
      exact Scans.blank (hBlank.of_alike hAlike) ih
  | code hLt hRun hEnds _ ih =>
      refine Scans.code hLt ?_ ?_ ih
      · intro n hFrom hTo
        exact (hRun n hFrom hTo).of_alike hAlike
      · intro hPlain
        exact hEnds (hPlain.of_alike hAlike.symm)

/-
  Source whose bytes are alike has the same spans.  So a byte
  that is not ASCII may be replaced by any other such byte, of
  the same width where character literals are read.
-/
theorem tokenize_eq_of_alike
    (h : AlikeBytes d s s') :
    tokenize d s = tokenize d s' :=
  ((scans_tokenize d s).of_alike h).eq_tokenize

/-
  An accent in a character literal and one in a comment give
  way to bytes that are no text.
-/
theorem tokenize_eq_of_alike_malformed :
    let d := Dialect.cFamily
    let s : Bytes :=
      [apostrophe, 0xC3, 0xA9, apostrophe, slash, slash, 0xC3,
        0xA9, lineFeed]
    let s' : Bytes :=
      [apostrophe, 0xC0, 0xBF, apostrophe, slash, slash, 0xDF,
        0x80, lineFeed]
    AlikeBytes d s s' ∧
      Utf8.decode? s' = none ∧
      tokenize d s = tokenize d s' := by
  intro d s s'
  have hAlike : AlikeBytes d s s' := by
    decide
  exact ⟨hAlike, by decide, tokenize_eq_of_alike hAlike⟩

end Lexer

end CommentLint
