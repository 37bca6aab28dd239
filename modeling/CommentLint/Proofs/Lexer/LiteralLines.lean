import CommentLint.Proofs.Lexer.LexicalRules
import CommentLint.Proofs.Lexer.LineEndings.Runs

/-
  Character literals of text, and the lines that they stand on.

  In text a literal holds one character, or a backslash with
  the characters of a short escape.  The lexer takes an
  apostrophe for one exactly where such text and an apostrophe
  follow.  A line ends inside a literal only where a backslash
  stands right before its line feed.

  Key definitions include:
    * `Lexer.LiteralText`
    * `Lexer.HasLiteralOnLine`
    * `Lexer.EscapesLineFeed`

  Key results include:
    * `Lexer.literalBody_encode_iff`
    * `Lexer.LiteralAt.lineFeed`
    * `Lexer.Scans.escapes_of_lineFeed`
    * `Lexer.literals_keep_lines`
-/

namespace CommentLint

namespace Lexer

open Ascii

------------------------------------------------------------
-- Literals of Text
------------------------------------------------------------

/-
  The text between the apostrophes: one character, or an escape
  that fits into the window behind its backslash.
-/
inductive LiteralText : List Char → Prop where
| character {c : Char} :
    c ≠ '\'' →
    c ≠ '\\' →
    c ≠ '\n' →
    LiteralText [c]
| escape {c : Char} {tail : List Char} :
    '\'' ∉ tail →
    '\n' ∉ tail →
    (Utf8.encode (c :: tail)).length ≤ escapeWindow →
    LiteralText ('\\' :: c :: tail)

theorem encodeChar_apostrophe :
    String.utf8EncodeChar '\'' = [apostrophe] := by
  decide

theorem encodeChar_backslash :
    String.utf8EncodeChar '\\' = [backslash] := by
  decide

/- Bytes are inside where their characters are. -/
theorem isInside_encode_iff
    {tail : List Char} :
    (∀ b ∈ Utf8.encode tail, IsInside b) ↔
      '\'' ∉ tail ∧ '\n' ∉ tail := by
  rw [← Utf8.mem_encode_iff encodeChar_apostrophe (by decide),
    ← Utf8.mem_encode_iff Utf8.encodeChar_lineFeed (by decide)]
  constructor
  · intro hInside
    refine ⟨fun hMem => ?_, fun hMem => ?_⟩
    · exact (hInside _ hMem).1 rfl
    · exact (hInside _ hMem).2 rfl
  · rintro ⟨hNone, hLine⟩ b hMem
    refine ⟨?_, ?_⟩
    · rintro rfl
      exact hNone hMem
    · rintro rfl
      exact hLine hMem

/- A byte that continues a character is inside. -/
theorem isInside_of_isTail
    {b : UInt8}
    (h : Utf8.IsTail b) :
    IsInside b := by
  refine ⟨?_, ?_⟩
  · rintro rfl
    exact absurd h (by decide)
  · rintro rfl
    exact absurd h (by decide)

/- The bytes of a literal of text are the body of one. -/
theorem LiteralText.literalBody
    {body : List Char}
    (h : LiteralText body) :
    LiteralBody (Utf8.encode body) := by
  cases h with
  | @character c hApostrophe hBackslash hFeed =>
      rcases Utf8.exists_encodeChar_eq_cons c with
        ⟨b, tail, hBytes, hForm⟩
      have hText : Utf8.encode [c] = b :: tail := by
        simp [hBytes]
      have hInside : ∀ x ∈ Utf8.encode [c], IsInside x :=
        isInside_encode_iff.mpr
          ⟨by simpa using hApostrophe.symm,
            by simpa using hFeed.symm⟩
      have hPlain : backslash ∉ Utf8.encode [c] := by
        rw [Utf8.mem_encode_iff encodeChar_backslash (by decide)]
        simpa using hBackslash.symm
      rw [hText] at hInside hPlain ⊢
      exact
        LiteralBody.character
          (hInside b (List.mem_cons_self ..))
          (fun hSame => hPlain (by simp [hSame]))
          (characterWidth_of_wellFormed hForm).symm
  | @escape c tail hApostrophe hFeed hShort =>
      rcases Utf8.exists_encodeChar_eq_cons c with
        ⟨b, rest, hBytes, hForm⟩
      have hInside :=
        isInside_encode_iff.mpr ⟨hApostrophe, hFeed⟩
      rw [Utf8.encode_cons, hBytes, List.cons_append,
        List.length_cons] at hShort
      rw [Utf8.encode_cons, Utf8.encode_cons, hBytes,
        encodeChar_backslash]
      refine LiteralBody.escape hShort ?_
      intro x hMem
      rcases List.mem_append.mp hMem with hTail | hRest
      · exact isInside_of_isTail (hForm.tails.2 x hTail)
      · exact hInside x hRest

/- Text whose bytes are the body of a literal is that of one. -/
theorem LiteralText.of_literalBody
    {body : List Char}
    (h : LiteralBody (Utf8.encode body)) :
    LiteralText body := by
  generalize hText : Utf8.encode body = s at h
  cases h with
  | @character b tail hInside hPlain hWidth =>
      rcases Utf8.exists_of_encode_eq_cons hText with
        ⟨c, rest, xs, rfl, rfl, hForm⟩
      rw [characterWidth_of_wellFormed hForm,
        List.length_append] at hWidth
      -- The first byte asks for no more than its own character.
      have hNone : (Utf8.encode rest).length = 0 := by
        omega
      have hAlone : rest = [] :=
        Utf8.encode_eq_nil_iff.mp
          (List.eq_nil_of_length_eq_zero hNone)
      subst hAlone
      have hOther :
          ∀ {x : Char} {a : UInt8},
            String.utf8EncodeChar x = [a] → b ≠ a → c ≠ x := by
        rintro x a hChar hNe rfl
        rw [hForm.encodeChar_eq, List.cons.injEq] at hChar
        exact hNe hChar.1
      exact
        LiteralText.character
          (hOther encodeChar_apostrophe hInside.1)
          (hOther encodeChar_backslash hPlain)
          (hOther Utf8.encodeChar_lineFeed hInside.2)
  | @escape b tail hShort hInside =>
      have hSplit :
          Utf8.encode body = [] ++ backslash :: b :: tail :=
        hText
      rcases Utf8.exists_split_of_ascii encodeChar_backslash
          (by decide) hSplit with
        ⟨front, rest, rfl, hFront, hRest⟩
      cases Utf8.encode_eq_nil_iff.mp hFront
      rcases Utf8.exists_of_encode_eq_cons hRest with
        ⟨c, text, xs, rfl, rfl, _⟩
      have hText : ∀ x ∈ Utf8.encode text, IsInside x :=
        fun x hMem => hInside x (List.mem_append_right xs hMem)
      rcases isInside_encode_iff.mp hText with
        ⟨hApostrophe, hFeed⟩
      refine LiteralText.escape hApostrophe hFeed ?_
      rw [hRest, List.length_cons]
      exact hShort

/- The bytes of a literal are those of its text. -/
theorem literalBody_encode_iff
    {body : List Char} :
    LiteralBody (Utf8.encode body) ↔ LiteralText body :=
  ⟨LiteralText.of_literalBody, LiteralText.literalBody⟩

------------------------------------------------------------
-- Literals in Text
------------------------------------------------------------

/- A literal of text stands behind some number of bytes. -/
def LiteralAt
    (text : List Char)
    (n : Nat)
    (body : List Char) : Prop :=
  ∃ before after,
    text = before ++ '\'' :: (body ++ '\'' :: after) ∧
      (Utf8.encode before).length = n ∧ LiteralText body

/- A complete literal stands there, all of it on one line. -/
def HasLiteralOnLine
    (text : List Char)
    (n : Nat) : Prop :=
  ∃ body, '\n' ∉ body ∧ LiteralAt text n body

/- A literal stands there whose backslash escapes a line feed. -/
def EscapesLineFeed
    (text : List Char)
    (n : Nat) : Prop :=
  ∃ tail, LiteralAt text n ('\\' :: '\n' :: tail)

/- A line ends in a literal only right behind its backslash. -/
theorem LiteralText.lineFeed_cases
    {body : List Char}
    (h : LiteralText body) :
    '\n' ∉ body ∨
      ∃ tail, body = '\\' :: '\n' :: tail ∧ '\n' ∉ tail := by
  cases h with
  | character _ _ hFeed =>
      left
      simpa using hFeed.symm
  | @escape c tail _ hFeed _ =>
      by_cases hEscaped : c = '\n'
      · subst hEscaped
        exact Or.inr ⟨tail, rfl, hFeed⟩
      · left
        simp [hFeed, Ne.symm hEscaped]

/- What stands between its apostrophes is text of a literal. -/
theorem LiteralAt.literalText
    {text body : List Char}
    {n : Nat}
    (h : LiteralAt text n body) :
    LiteralText body := by
  rcases h with ⟨_, _, _, _, hLiteral⟩
  exact hLiteral

/- A literal that escapes no line feed is on one line. -/
theorem LiteralAt.onLine
    {text body : List Char}
    {n : Nat}
    (h : LiteralAt text n body)
    (hPlain : ¬ EscapesLineFeed text n) :
    HasLiteralOnLine text n := by
  rcases h.literalText.lineFeed_cases with
    hNone | ⟨tail, rfl, _⟩
  · exact ⟨body, hNone, h⟩
  · exact absurd ⟨tail, h⟩ hPlain

/- The bytes of a literal, an apostrophe before and behind. -/
theorem LiteralAt.exists_drop
    {text body : List Char}
    {n : Nat}
    (h : LiteralAt text n body) :
    ∃ rest,
      (Utf8.encode text).drop n =
        apostrophe ::
          (Utf8.encode body ++ apostrophe :: rest) := by
  rcases h with ⟨before, after, rfl, rfl, _⟩
  refine ⟨Utf8.encode after, ?_⟩
  simp [encodeChar_apostrophe]

/- A literal of bytes is one of text. -/
theorem exists_literalAt
    {text : List Char}
    {n : Nat}
    {body rest : Bytes}
    (hDrop :
      (Utf8.encode text).drop n =
        apostrophe :: (body ++ apostrophe :: rest))
    (hBody : LiteralBody body) :
    ∃ inner,
      LiteralAt text n inner ∧ Utf8.encode inner = body := by
  have hSplit :
      Utf8.encode text =
        (Utf8.encode text).take n ++
          apostrophe :: (body ++ apostrophe :: rest) := by
    rw [← hDrop, List.take_append_drop]
  have hIn : n < (Utf8.encode text).length := by
    have hLength := congrArg List.length hDrop
    rw [List.length_drop, List.length_cons] at hLength
    omega
  rcases Utf8.exists_split_of_ascii encodeChar_apostrophe
      (by decide) hSplit with
    ⟨before, behind, hOuter, hBefore, hBehind⟩
  rcases Utf8.exists_split_of_ascii encodeChar_apostrophe
      (by decide) hBehind with ⟨inner, after, rfl, rfl, _⟩
  refine
    ⟨inner,
      ⟨before, after, hOuter, ?_,
        literalBody_encode_iff.mp hBody⟩, rfl⟩
  rw [hBefore, List.length_take_of_le (Nat.le_of_lt hIn)]

------------------------------------------------------------
-- Literals among the Tokens
------------------------------------------------------------

section Tokens

variable {d : Dialect}
variable {text body : List Char}
variable {n k : Nat}

/- The lexer takes a literal as text. -/
theorem LiteralAt.token?
    (hCharacter : d.apostrophe = .character)
    (h : LiteralAt text n body) :
    token? d ((Utf8.encode text).drop n) =
      some (.text, (Utf8.encode body).length + 2) := by
  have hBody := h.literalText.literalBody
  rcases h.exists_drop with ⟨rest, hDrop⟩
  rw [hDrop, token?_apostrophe, hCharacter]
  dsimp only
  rw [characterLiteralWidth?_append hBody, Option.map_some]

/- At an apostrophe it takes nothing but a literal. -/
theorem exists_literalAt_of_token?
    {kind : SpanKind}
    {width : Nat}
    (hCharacter : d.apostrophe = .character)
    (hByte : (Utf8.encode text)[n]? = some apostrophe)
    (hToken :
      token? d ((Utf8.encode text).drop n) =
        some (kind, width)) :
    ∃ body,
      LiteralAt text n body ∧
        width = (Utf8.encode body).length + 2 := by
  rcases exists_drop_eq_cons hByte with ⟨behind, hDrop⟩
  rw [hDrop, token?_apostrophe, hCharacter] at hToken
  rcases Option.map_eq_some_iff.mp hToken with
    ⟨found, hFound, hPair⟩
  cases hPair
  rcases exists_of_characterLiteralWidth? hFound with
    ⟨bytes, rest, rfl, hBody, rfl⟩
  rcases exists_literalAt hDrop hBody with
    ⟨body, hLiteral, rfl⟩
  exact ⟨body, hLiteral, rfl⟩

/- The byte of an escape that is a line feed is the second. -/
theorem eq_one_of_escape
    {tail : List Char}
    (hTail : '\n' ∉ tail)
    (hByte :
      (Utf8.encode ('\\' :: '\n' :: tail))[k]? =
        some lineFeed) :
    k = 1 := by
  rw [Utf8.encode_cons, Utf8.encode_cons, encodeChar_backslash,
    Utf8.encodeChar_lineFeed] at hByte
  match k, hByte with
  | 0, hFirst => cases hFirst
  | 1, _ => rfl
  | j + 2, hLater =>
      have hMem : lineFeed ∈ Utf8.encode tail :=
        List.mem_of_getElem? hLater
      rw [Utf8.mem_encode_iff Utf8.encodeChar_lineFeed
        (by decide)] at hMem
      exact absurd hMem hTail

/- A line feed in a literal is the escaped character. -/
theorem LiteralAt.lineFeed
    (h : LiteralAt text n body)
    (hFrom : n ≤ k)
    (hTo : k < n + ((Utf8.encode body).length + 2))
    (hByte : (Utf8.encode text)[k]? = some lineFeed) :
    k = n + 2 ∧ ∃ tail, body = '\\' :: '\n' :: tail := by
  rcases h.exists_drop with ⟨rest, hDrop⟩
  obtain ⟨j, rfl⟩ := Nat.exists_eq_add_of_le hFrom
  rw [← List.getElem?_drop, hDrop] at hByte
  cases j with
  | zero => cases hByte
  | succ j =>
      rw [List.getElem?_cons_succ] at hByte
      rcases Nat.lt_or_ge j (Utf8.encode body).length with
        hIn | hEnd
      · rw [List.getElem?_append_left hIn] at hByte
        have hMem : '\n' ∈ body :=
          (Utf8.mem_encode_iff Utf8.encodeChar_lineFeed
            (by decide)).mp (List.mem_of_getElem? hByte)
        rcases h.literalText.lineFeed_cases with
          hNone | ⟨tail, rfl, hTail⟩
        · exact absurd hMem hNone
        · cases eq_one_of_escape hTail hByte
          exact ⟨rfl, tail, rfl⟩
      · have hLast : j = (Utf8.encode body).length := by
          omega
        subst hLast
        rw [List.getElem?_append_right (Nat.le_refl _),
          Nat.sub_self] at hByte
        cases hByte

end Tokens

------------------------------------------------------------
-- Lines
------------------------------------------------------------

/- An offset lies behind the first byte of a token. -/
def IsInsideToken
    (spans : List Span)
    (n : Nat) : Prop :=
  ∃ s ∈ spans, s.kind ≠ .code ∧ s.offset < n ∧ n < s.stop

instance (spans : List Span) (n : Nat) :
    Decidable (IsInsideToken spans n) := by
  unfold IsInsideToken
  infer_instance

section Lines

variable {d : Dialect}
variable {text : List Char}
variable {spans : List Span}
variable {s : Span}
variable {n : Nat}

/- Code holds no line feed. -/
theorem Scans.not_lineFeed_of_code
    {data : Bytes}
    {pos : Nat}
    (h : Scans d data pos spans)
    (hMem : s ∈ spans)
    (hCode : s.kind = .code)
    (hCovers : s.Covers n) :
    data[n]? ≠ some lineFeed := by
  intro hByte
  exact
    h.not_mem_blankBytes hMem hCode hCovers hByte (by decide)

/- A token that starts at an apostrophe is a literal. -/
theorem Scans.exists_literalAt
    {pos : Nat}
    (hCharacter : d.apostrophe = .character)
    (h : Scans d (Utf8.encode text) pos spans)
    (hMem : s ∈ spans)
    (hToken : s.kind ≠ .code)
    (hOffset : s.offset = n)
    (hByte : (Utf8.encode text)[n]? = some apostrophe) :
    ∃ body,
      LiteralAt text n body ∧
        s.stop = n + ((Utf8.encode body).length + 2 : Nat) := by
  rcases h.token?_of_mem hMem hToken with
    ⟨m, width, hSpan, hFound⟩
  rw [hSpan] at hOffset
  have hSame : m = n := Int.ofNat_inj.mp hOffset
  subst hSame
  rcases exists_literalAt_of_token? hCharacter hByte hFound with
    ⟨body, hLiteral, rfl⟩
  refine ⟨body, hLiteral, ?_⟩
  rw [hSpan]
  rfl

/- An apostrophe stands in code or starts a token. -/
theorem Scans.exists_covers_apostrophe
    {data : Bytes}
    (h : Scans d data 0 spans)
    (hByte : data[n]? = some apostrophe)
    (hOutside : ¬ IsInsideToken spans n) :
    ∃ s ∈ spans,
      s.Covers n ∧ (s.kind = .code ∨ s.offset = n) := by
  by_cases hSpan : ∃ s ∈ spans, s.Covers n
  · rcases hSpan with ⟨s, hMem, hCovers⟩
    refine ⟨s, hMem, hCovers, ?_⟩
    by_cases hCode : s.kind = .code
    · exact Or.inl hCode
    · right
      by_contra hBehind
      have hBefore : s.offset < n := by
        have hFrom := hCovers.1
        omega
      exact hOutside ⟨s, hMem, hCode, hBefore, hCovers.2⟩
  · have hBlank : apostrophe ∈ blankBytes :=
      h.mem_blankBytes hByte fun s hMem hCovers =>
        hSpan ⟨s, hMem, hCovers⟩
    exact absurd hBlank (by decide)

/- A line feed behind an apostrophe is an escaped character. -/
theorem Scans.escapes_of_lineFeed
    {pos k : Nat}
    (hCharacter : d.apostrophe = .character)
    (h : Scans d (Utf8.encode text) pos spans)
    (hMem : s ∈ spans)
    (hOffset : s.offset = n)
    (hByte : (Utf8.encode text)[n]? = some apostrophe)
    (hCovers : s.Covers k)
    (hFeed : (Utf8.encode text)[k]? = some lineFeed) :
    k = n + 2 ∧ EscapesLineFeed text n := by
  by_cases hCode : s.kind = .code
  · exact
      absurd hFeed (h.not_lineFeed_of_code hMem hCode hCovers)
  · rcases h.exists_literalAt hCharacter hMem hCode hOffset
        hByte with ⟨body, hLiteral, hStop⟩
    rcases hCovers with ⟨hFrom, hTo⟩
    rcases hLiteral.lineFeed (by omega) (by omega) hFeed with
      ⟨hPlace, tail, rfl⟩
    exact ⟨hPlace, tail, hLiteral⟩

/-
  An apostrophe in code or at the start of a token is code
  unless a complete literal stands there, and its span ends
  with its line.
-/
theorem Scans.code_iff_of_apostrophe
    (hCharacter : d.apostrophe = .character)
    (h : Scans d (Utf8.encode text) 0 spans)
    (hMem : s ∈ spans)
    (hByte : (Utf8.encode text)[n]? = some apostrophe)
    (hPlain : ¬ EscapesLineFeed text n)
    (hCovers : s.Covers n)
    (hStands : s.kind = .code ∨ s.offset = n) :
    (s.kind = .code ↔ ¬ HasLiteralOnLine text n) ∧
      ∀ k, s.Covers k →
        (Utf8.encode text)[k]? ≠ some lineFeed := by
  by_cases hCode : s.kind = .code
  · refine ⟨iff_of_true hCode ?_, fun k hAt => ?_⟩
    · rintro ⟨body, _, hLiteral⟩
      have hNone := (h.isPlainAt_of_mem hMem hCode hCovers).1
      cases hNone.symm.trans (hLiteral.token? hCharacter)
    · exact h.not_lineFeed_of_code hMem hCode hAt
  · have hOffset := hStands.resolve_left hCode
    rcases h.exists_literalAt hCharacter hMem hCode hOffset
        hByte with ⟨body, hLiteral, _⟩
    refine ⟨iff_of_false hCode ?_, fun k hAt hFeed => ?_⟩
    · exact not_not_intro (hLiteral.onLine hPlain)
    · exact
        hPlain
          (h.escapes_of_lineFeed hCharacter hMem hOffset hByte
            hAt hFeed).2

end Lines

/-
  In text a token that starts at an apostrophe holds a line
  feed only as an escaped character.  Any other apostrophe
  stays on its line: it is code unless a complete literal
  stands there, and hides nothing of a later line.
-/
theorem literals_keep_lines
    {d : Dialect}
    {data : Bytes}
    {text : List Char}
    (hCharacter : d.apostrophe = .character)
    (hText : Utf8.decode? data = some text) :
    (∀ s ∈ tokenize d data,
      ∀ n : Nat, s.offset = n → data[n]? = some apostrophe →
        ∀ k, s.Covers k → data[k]? = some lineFeed →
          k = n + 2 ∧ EscapesLineFeed text n) ∧
    ∀ n, data[n]? = some apostrophe →
      ¬ EscapesLineFeed text n →
      ¬ IsInsideToken (tokenize d data) n →
        ∃ s ∈ tokenize d data,
          s.Covers n ∧
            (s.kind = .code ↔ ¬ HasLiteralOnLine text n) ∧
            ∀ k, s.Covers k → data[k]? ≠ some lineFeed := by
  cases Utf8.decode?_eq_some_iff.mp hText
  have hScans := scans_tokenize d (Utf8.encode text)
  refine ⟨?_, ?_⟩
  · intro s hMem n hOffset hByte k hCovers hFeed
    exact
      hScans.escapes_of_lineFeed hCharacter hMem hOffset hByte
        hCovers hFeed
  · intro n hByte hPlain hOutside
    rcases hScans.exists_covers_apostrophe hByte hOutside with
      ⟨s, hMem, hCovers, hStands⟩
    exact
      ⟨s, hMem, hCovers,
        hScans.code_iff_of_apostrophe hCharacter hMem hByte
          hPlain hCovers hStands⟩

/-
  A lifetime is code, a backslash carries a literal over the
  end of its line, and the next literal keeps to its own.
-/
theorem literals_keep_lines_lifetime :
    let d := Dialect.nestingCharacter
    let text :=
      ['\'', 'a', ' ', '\'', '\\', '\n', '\'', ' ', '\'', 'b',
        '\'']
    Utf8.decode? (Utf8.encode text) = some text ∧
      d.apostrophe = .character ∧
      EscapesLineFeed text 3 ∧
      ¬ HasLiteralOnLine text 0 ∧ HasLiteralOnLine text 8 := by
  intro d text
  have hText :
      Utf8.decode? (Utf8.encode text) = some text := by
    decide
  have hSpans :
      tokenize d (Utf8.encode text) =
        [⟨.code, 0, 2⟩, ⟨.text, 3, 4⟩, ⟨.text, 8, 3⟩] := by
    decide
  have hPlain :
      ∀ n, (Utf8.encode text)[n + 2]? ≠ some lineFeed →
        ¬ EscapesLineFeed text n := by
    rintro n hOther ⟨tail, hLiteral⟩
    rcases hLiteral.exists_drop with ⟨rest, hDrop⟩
    apply hOther
    rw [← List.getElem?_drop, hDrop]
    rfl
  have hCharacter : d.apostrophe = .character := rfl
  rcases literals_keep_lines hCharacter hText with
    ⟨hFeeds, hLines⟩
  refine ⟨hText, rfl, ?_, ?_, ?_⟩
  · exact
      (hFeeds ⟨.text, 3, 4⟩ (by simp [hSpans]) 3 rfl rfl 5
        (by decide) rfl).2
  · rcases hLines 0 rfl (hPlain 0 (by decide))
        (by rw [hSpans]; decide) with
      ⟨s, hMem, hCovers, hCode, _⟩
    have hKind :
        ∀ s ∈ tokenize d (Utf8.encode text),
          s.Covers 0 → s.kind = .code := by
      rw [hSpans]
      decide
    exact hCode.mp (hKind s hMem hCovers)
  · rcases hLines 8 rfl (hPlain 8 (by decide))
        (by rw [hSpans]; decide) with
      ⟨s, hMem, hCovers, hCode, _⟩
    have hKind :
        ∀ s ∈ tokenize d (Utf8.encode text),
          s.Covers 8 → s.kind ≠ .code := by
      rw [hSpans]
      decide
    by_contra hNone
    exact hKind s hMem hCovers (hCode.mpr hNone)

/-
  A backslash in front of the line feed hides the comment of
  the next line.
-/
theorem literal_hides_comment :
    let d := Dialect.cFamily
    let data : Bytes :=
      [apostrophe, backslash, lineFeed, slash, slash, 0x78,
        apostrophe]
    (Utf8.decode? data).isSome ∧ d.apostrophe = .character ∧
      Span.comments (tokenize d data) = [] ∧
      ¬ ∀ s ∈ tokenize d data,
        ∀ n : Nat, s.offset = n → data[n]? = some apostrophe →
          ∀ k, s.Covers k → data[k]? ≠ some lineFeed := by
  intro d data
  refine ⟨by decide, by decide, by decide, fun hKeeps => ?_⟩
  have hMem : ⟨.text, 0, 7⟩ ∈ tokenize d data := by
    decide
  exact hKeeps _ hMem 0 rfl rfl 2 (by decide) rfl

end Lexer

end CommentLint
