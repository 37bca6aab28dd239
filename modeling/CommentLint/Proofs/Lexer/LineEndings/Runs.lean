import CommentLint.Proofs.Lexer.Partition
import CommentLint.Proofs.Lexer.LineEndings.Tokens

/-
  Runs over bytes whose line feeds get carriage returns.

  A run over the bytes is mirrored by one over the bytes with
  returns: it stands at the place of each offset, or behind
  the carriage return where the offset is that of a line feed.
  So the comments are the same ones, each at its place.

  Key definitions include:
    * `Lexer.KeepsLines`
    * `Lexer.Mirrors`

  Key results include:
    * `Lexer.KeepsLines.of_encode`
    * `Lexer.Scans.exists_mirrors`
    * `Lexer.comments_tokenize_withReturns`
-/

namespace CommentLint

------------------------------------------------------------
-- Spans
------------------------------------------------------------

/- The bytes that a span covers. -/
def Span.bytes
    (s : Span)
    (data : Bytes) : Bytes :=
  (data.drop s.offset.toNat).take s.length.toNat

/- A span at its place once the carriage returns are put in. -/
def Span.toPlace
    (data : Bytes)
    (s : Span) : Span :=
  { s with offset := (place data s.offset.toNat : Nat) }

namespace Lexer

open Ascii

------------------------------------------------------------
-- Lines That Are Kept
------------------------------------------------------------

/-
  No token hides the end of a line from the rule of its kind:
  text of one line holds no line feed, and no apostrophe of
  code leads a character that a line feed cuts off.
-/
structure KeepsLines
    (d : Dialect)
    (data : Bytes)
    (spans : List Span) : Prop where
  texts :
    ∀ s ∈ spans, s.kind = .text → lineFeed ∈ s.bytes data →
      tripleQuote <+: s.bytes data ∨ [backtick] <+: s.bytes data
  leads :
    d.apostrophe = .character →
      ∀ s ∈ spans, s.kind = .code →
        ∀ n < data.length, s.Covers n →
          ¬ CutsCharacter (data.drop n)

instance (d : Dialect) (data : Bytes) (spans : List Span) :
    Decidable (KeepsLines d data spans) :=
  decidable_of_iff
    ((∀ s ∈ spans, s.kind = .text → lineFeed ∈ s.bytes data →
        tripleQuote <+: s.bytes data ∨
          [backtick] <+: s.bytes data) ∧
      (d.apostrophe = .character →
        ∀ s ∈ spans, s.kind = .code →
          ∀ n < data.length, s.Covers n →
            ¬ CutsCharacter (data.drop n)))
    ⟨fun h => ⟨h.1, h.2⟩, fun h => ⟨h.texts, h.leads⟩⟩

/- The first byte of a well-formed sequence tells its length. -/
theorem characterWidth_of_wellFormed
    {b : UInt8}
    {tail : Bytes}
    {n : Nat}
    (h : Utf8.WellFormed (b :: tail) n) :
    characterWidth b = tail.length + 1 := by
  unfold characterWidth
  simp only [UInt8.le_iff_toNat_le, UInt8.reduceToNat]
  cases h with
  | one hLead _ =>
      rw [if_neg (by omega), if_neg (by omega),
        if_neg (by omega)]
      rfl
  | two hLead _ _ =>
      rw [if_neg (by omega), if_neg (by omega),
        if_pos (by omega)]
      rfl
  | three hLead _ _ _ _ _ =>
      rw [if_neg (by omega), if_pos (by omega)]
      rfl
  | four hLead _ _ _ _ _ _ =>
      rw [if_pos (by omega)]
      rfl

/- No line feed cuts off a character of encoded text. -/
theorem not_cutsCharacter_encode
    (text : List Char)
    (n : Nat) :
    ¬ CutsCharacter ((Utf8.encode text).drop n) := by
  intro hCuts
  rcases hCuts.exists_rest with ⟨b, rest, hDrop, hFeed⟩
  have hByte : (Utf8.encode text)[n]? = some apostrophe := by
    rw [ ← List.head?_drop, hDrop]
    rfl
  have hBehind :
      (Utf8.encode text).drop (n + 1) = b :: rest := by
    rw [ ← List.drop_drop, hDrop]
    rfl
  rcases Utf8.isBoundary_succ_of_ascii hByte (by decide) with
    ⟨before, after, hText, hLength⟩
  rw [hText, Utf8.encode_append, List.drop_left' hLength]
    at hBehind
  cases after with
  | nil => cases hBehind
  | cons c after =>
      rcases Utf8.exists_encodeChar_eq_cons c with
        ⟨x, tail, hBytes, hForm⟩
      rw [Utf8.encode_cons, hBytes, List.cons_append,
        List.cons.injEq] at hBehind
      rcases hBehind with ⟨rfl, rfl⟩
      rw [characterWidth_of_wellFormed hForm,
        Nat.add_sub_cancel, List.take_left] at hFeed
      exact absurd (hForm.tails.2 _ hFeed) (by decide)

section Kept

variable {d : Dialect}
variable {data : Bytes}
variable {s : Span}
variable {spans : List Span}

/- Lines are kept by the spans of the rest. -/
theorem KeepsLines.tail
    (h : KeepsLines d data (s :: spans)) :
    KeepsLines d data spans where
  texts t hMem := h.texts t (List.mem_cons_of_mem _ hMem)
  leads hCharacter t hMem :=
    h.leads hCharacter t (List.mem_cons_of_mem _ hMem)

/-
  In encoded text lines are kept when text of one line holds
  no line feed.
-/
theorem KeepsLines.of_encode
    {text : List Char}
    (hTexts :
      ∀ s ∈ spans, s.kind = .text →
        lineFeed ∈ s.bytes (Utf8.encode text) →
          tripleQuote <+: s.bytes (Utf8.encode text) ∨
            [backtick] <+: s.bytes (Utf8.encode text)) :
    KeepsLines d (Utf8.encode text) spans where
  texts := hTexts
  leads _ _ _ _ n _ _ := not_cutsCharacter_encode text n

end Kept

------------------------------------------------------------
-- Blank and Plain Bytes
------------------------------------------------------------

section Places

variable {d : Dialect}
variable {data : Bytes}
variable {pos : Nat}
variable {b : UInt8}

/- What starts at an offset starts with its byte. -/
theorem exists_drop_eq_cons
    (hByte : data[pos]? = some b) :
    ∃ rest, data.drop pos = b :: rest := by
  rw [ ← List.head?_drop] at hByte
  exact List.head?_eq_some_iff.mp hByte

/- No token starts at a blank byte. -/
theorem isBlankAt_of_drop
    {rest : Bytes}
    (hDrop : data.drop pos = b :: rest)
    (hBlank : Ascii.isBlank b = true) :
    IsBlankAt d data pos := by
  have hNone : token? d (b :: rest) = none := by
    rw [Option.eq_none_iff_forall_ne_some]
    intro t hToken
    have hOpens := (lexeme_of_token? hToken).opens
    exact not_opens_of_isBlank hBlank rest hOpens
  refine ⟨hDrop ▸ hNone, b, ?_, hBlank⟩
  rw [ ← List.head?_drop, hDrop]
  rfl

/- A plain byte ends no line. -/
theorem IsPlainAt.exists_ne_lineFeed
    (h : IsPlainAt d data pos) :
    ∃ b, data[pos]? = some b ∧ b ≠ lineFeed ∧
      Ascii.isBlank b = false := by
  rcases h with ⟨_, b, hByte, hPlain⟩
  refine ⟨b, hByte, ?_, hPlain⟩
  rintro rfl
  cases hPlain

/- A plain byte stays plain at its place. -/
theorem IsPlainAt.toPlace
    (hLead :
      d.apostrophe = .character →
        ¬ CutsCharacter (data.drop pos))
    (h : IsPlainAt d data pos) :
    IsPlainAt d (withReturns data) (place data pos) := by
  rcases h.exists_ne_lineFeed with ⟨b, hByte, hFeed, hPlain⟩
  refine ⟨?_, b, getElem?_place hByte hFeed, hPlain⟩
  rw [drop_place, Option.eq_none_iff_forall_ne_some]
  intro t hToken
  have hOpens := (lexeme_of_token? hToken).opens
  exact
    not_opens_of_token? h.1
      (opens_of_opens_withReturns hLead hOpens)

/- The places of plain bytes follow each other. -/
theorem IsRun.place_add
    {next n : Nat}
    (h : IsRun d data pos next)
    (hn : pos + n ≤ next) :
    place data (pos + n) = place data pos + n := by
  induction n with
  | zero => rfl
  | succ n ih =>
      have hPlain := h (pos + n) (by omega) (by omega)
      rcases hPlain.exists_ne_lineFeed with ⟨b, hByte, hFeed, _⟩
      rw [ ← Nat.add_assoc, place_succ_of_ne hByte hFeed,
        ih (by omega), Nat.add_assoc]

end Places

------------------------------------------------------------
-- Mirrored Runs
------------------------------------------------------------

/-
  A run over the bytes with returns mirrors one over the
  bytes: it starts at the place of the offset, or behind the
  carriage return there, starts with a plain byte only where
  the other does, and has the comments at their places.
-/
structure Mirrors
    (d : Dialect)
    (data : Bytes)
    (pos : Nat)
    (spans spans' : List Span) : Prop where
  run : Scans d (withReturns data) (place data pos) spans'
  behind :
    data[pos]? = some lineFeed →
      Scans d (withReturns data) (place data pos + 1) spans'
  plain :
    IsPlainAt d (withReturns data) (place data pos) →
      IsPlainAt d data pos
  comments :
    Span.comments spans' =
      (Span.comments spans).map (Span.toPlace data)

namespace Mirrors

variable {d : Dialect}
variable {data : Bytes}
variable {pos : Nat}
variable {spans spans' : List Span}

/- The end is mirrored by the end. -/
theorem stop :
    Mirrors d data data.length [] [] where
  run := by
    rw [place_length]
    exact Scans.stop
  behind hByte := by simp at hByte
  plain hPlain := by
    have hLt := hPlain.lt
    rw [place_length] at hLt
    omega
  comments := rfl

/- A line feed is mirrored by the carriage return and its own. -/
theorem lineFeed
    (hByte : data[pos]? = some Ascii.lineFeed)
    (h : Mirrors d data (pos + 1) spans spans') :
    Mirrors d data pos spans spans' := by
  have hDrop := drop_place_of_lineFeed hByte
  have hDrop' :
      (withReturns data).drop (place data pos + 1) =
        Ascii.lineFeed :: withReturns (data.drop (pos + 1)) := by
    rw [ ← List.drop_drop, hDrop]
    rfl
  have hReturnAt :
      IsBlankAt d (withReturns data) (place data pos) :=
    isBlankAt_of_drop hDrop (by decide)
  have hFeedAt :
      IsBlankAt d (withReturns data) (place data pos + 1) :=
    isBlankAt_of_drop hDrop' (by decide)
  have hRun := h.run
  rw [place_succ_of_lineFeed hByte] at hRun
  exact
    { run := Scans.blank hReturnAt (Scans.blank hFeedAt hRun)
      behind := fun _ => Scans.blank hFeedAt hRun
      plain := fun hPlain =>
        absurd hPlain hReturnAt.not_isPlainAt
      comments := h.comments }

/- Any other blank byte is mirrored by its own. -/
theorem blank
    {b : UInt8}
    (hByte : data[pos]? = some b)
    (hFeed : b ≠ Ascii.lineFeed)
    (hBlank : Ascii.isBlank b = true)
    (h : Mirrors d data (pos + 1) spans spans') :
    Mirrors d data pos spans spans' := by
  rcases exists_drop_eq_cons (getElem?_place hByte hFeed) with
    ⟨rest, hDrop⟩
  have hBlankAt :
      IsBlankAt d (withReturns data) (place data pos) :=
    isBlankAt_of_drop hDrop hBlank
  have hRun := h.run
  rw [place_succ_of_ne hByte hFeed] at hRun
  exact
    { run := Scans.blank hBlankAt hRun
      behind := fun hOther =>
        absurd (Option.some.inj (hByte.symm.trans hOther)) hFeed
      plain := fun hPlain =>
        absurd hPlain hBlankAt.not_isPlainAt
      comments := h.comments }

/- A token is mirrored by one of its kind. -/
theorem token
    {kind : SpanKind}
    {width : Nat}
    (hReturn : carriageReturn ∉ data)
    (hText :
      kind = .text →
        Ascii.lineFeed ∈ (data.drop pos).take width →
          tripleQuote <+: data.drop pos ∨
            [backtick] <+: data.drop pos)
    (hToken : token? d (data.drop pos) = some (kind, width))
    (h : Mirrors d data (pos + width) spans spans') :
    ∃ spans',
      Mirrors d data pos (⟨kind, pos, width⟩ :: spans) spans' := by
  have hReturnHere : carriageReturn ∉ data.drop pos :=
    fun hMem => hReturn (List.mem_of_mem_drop hMem)
  rcases tokenAlike_of_token? hReturnHere hText hToken with
    ⟨width', hToken', hEnds⟩
  have hRun :
      Scans d (withReturns data) (place data pos + width')
        spans' := by
    rcases hEnds with ⟨n, hn, hn'⟩ | ⟨n, hn, hByte, hn'⟩
    · have hRun := h.run
      rw [Nat.zero_add] at hn hn'
      rwa [place_add, hn, ← hn'] at hRun
    · rw [Nat.zero_add] at hn hn'
      rw [List.getElem?_drop, ← hn] at hByte
      have hRun := h.behind hByte
      rwa [place_add, hn, Nat.add_assoc, ← hn'] at hRun
  refine
    ⟨⟨kind, (place data pos : Nat), width'⟩ :: spans',
      { run := Scans.token (drop_place data pos ▸ hToken') hRun
        behind := ?_
        plain := ?_
        comments := ?_ }⟩
  · intro hByte
    rcases exists_drop_eq_cons hByte with ⟨rest, hDrop⟩
    have hBlankAt : IsBlankAt d data pos :=
      isBlankAt_of_drop hDrop (by decide)
    cases hBlankAt.1.symm.trans hToken
  · rintro ⟨hNone, _⟩
    rw [drop_place] at hNone
    cases hNone.symm.trans hToken'
  · unfold Span.comments
    cases hLine : kind.isLineComment with
    | false =>
        rw [List.filter_cons_of_neg (by simp [hLine]),
          List.filter_cons_of_neg (by simp [hLine])]
        exact h.comments
    | true =>
        have hSame :=
          token?_withReturns_of_isLineComment hReturnHere hLine
            hToken
        cases hSame.symm.trans hToken'
        rw [List.filter_cons_of_pos (by exact hLine),
          List.filter_cons_of_pos (by exact hLine),
          List.map_cons]
        congr 1
        exact h.comments

/- A run of plain bytes is mirrored byte by byte. -/
theorem code
    {next : Nat}
    (hLt : pos < next)
    (hPlain : IsRun d data pos next)
    (hEnds : ¬ IsPlainAt d data next)
    (hLead :
      ∀ n, pos ≤ n → n < next →
        d.apostrophe = .character →
          ¬ CutsCharacter (data.drop n))
    (h : Mirrors d data next spans spans') :
    ∃ spans',
      Mirrors d data pos
        (⟨.code, pos, (next - pos : Nat)⟩ :: spans) spans' := by
  have hPlaces :
      ∀ n, pos + n ≤ next →
        place data (pos + n) = place data pos + n :=
    fun n hn => hPlain.place_add hn
  have hNext :
      place data next = place data pos + (next - pos) := by
    rw [ ← hPlaces (next - pos) (by omega)]
    congr 1
    omega
  have hPlain' :
      IsRun d (withReturns data) (place data pos)
        (place data next) := by
    intro m hFrom hTo
    obtain ⟨n, rfl⟩ := Nat.exists_eq_add_of_le hFrom
    have hn : pos + n < next := by omega
    rw [ ← hPlaces n (Nat.le_of_lt hn)]
    exact
      (hPlain (pos + n) (Nat.le_add_right pos n) hn).toPlace
        (hLead (pos + n) (Nat.le_add_right pos n) hn)
  have hRun :=
    Scans.code (by omega) hPlain'
      (fun hAt => hEnds (h.plain hAt)) h.run
  have hHere := hPlain pos (Nat.le_refl pos) hLt
  exact
    ⟨_,
      { run := hRun
        behind := fun hByte => by
          rcases hHere.exists_ne_lineFeed with
            ⟨b, hOther, hFeed, _⟩
          exact
            absurd (Option.some.inj (hOther.symm.trans hByte))
              hFeed
        plain := fun _ => hHere
        comments := h.comments }⟩

end Mirrors

/- A run that keeps lines is mirrored. -/
theorem Scans.exists_mirrors
    {d : Dialect}
    {data : Bytes}
    {pos : Nat}
    {spans : List Span}
    (h : Scans d data pos spans)
    (hReturn : carriageReturn ∉ data)
    (hKeeps : KeepsLines d data spans) :
    ∃ spans', Mirrors d data pos spans spans' := by
  induction h with
  | stop => exact ⟨[], Mirrors.stop⟩
  | @token pos width kind spans hToken _ ih =>
      rcases ih hKeeps.tail with ⟨spans', hMirrors⟩
      refine hMirrors.token hReturn ?_ hToken
      intro hKind hFeed
      have hFront :
          Span.bytes ⟨kind, pos, width⟩ data <+: data.drop pos :=
        List.take_prefix width _
      rcases
          hKeeps.texts _ (List.mem_cons_self ..) hKind hFeed with
        hStands | hStands
      · exact Or.inl (hStands.trans hFront)
      · exact Or.inr (hStands.trans hFront)
  | blank hBlank _ ih =>
      rcases ih hKeeps with ⟨spans', hMirrors⟩
      rcases hBlank with ⟨_, b, hByte, hIsBlank⟩
      by_cases hb : b = lineFeed
      · subst hb
        exact ⟨spans', hMirrors.lineFeed hByte⟩
      · exact ⟨spans', hMirrors.blank hByte hb hIsBlank⟩
  | @code pos next spans hLt hRun hEnds _ ih =>
      rcases ih hKeeps.tail with ⟨spans', hMirrors⟩
      refine hMirrors.code hLt hRun hEnds ?_
      intro n hFrom hTo hCharacter
      have hIn := (hRun n hFrom hTo).lt
      exact
        hKeeps.leads hCharacter _ (List.mem_cons_self ..) rfl n hIn
          (covers_mk hFrom (by omega))

/-
  The comments of source with carriage returns are those of
  the source at their places.
-/
theorem comments_tokenize_withReturns
    {d : Dialect}
    {data : Bytes}
    (hReturn : carriageReturn ∉ data)
    (hKeeps : KeepsLines d data (tokenize d data)) :
    Span.comments (tokenize d (withReturns data)) =
      (Span.comments (tokenize d data)).map
        (Span.toPlace data) := by
  rcases (scans_tokenize d data).exists_mirrors hReturn hKeeps with
    ⟨spans', hMirrors⟩
  have hRun := hMirrors.run
  rw [place_zero] at hRun
  rw [ ← hRun.eq_tokenize]
  exact hMirrors.comments

end Lexer

end CommentLint
