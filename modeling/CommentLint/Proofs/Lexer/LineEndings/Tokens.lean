import CommentLint.Proofs.Lexer.CharacterLiteral
import CommentLint.Proofs.Lexer.CommentLines
import CommentLint.Proofs.Lexer.LineEndings.Widths

/-
  Tokens in bytes whose line feeds get carriage returns.

  A token starts where one did and is of the same kind, when
  text of one line holds no line feed.  An apostrophe opens
  nothing new, when no character behind it is cut off.

  Key definitions include:
    * `Lexer.TokenAlike`
    * `Lexer.CutsCharacter`

  Key results include:
    * `Lexer.tokenAlike_of_token?`
    * `Lexer.opens_of_opens_withReturns`
-/

namespace CommentLint

namespace Lexer

open Ascii

variable {d : Dialect}
variable {s rest : Bytes}
variable {kind : SpanKind}
variable {width : Nat}

------------------------------------------------------------
-- Comments
------------------------------------------------------------

/- The bytes with returns have a token of a kind that ends alike. -/
def TokenAlike
    (d : Dialect)
    (s : Bytes)
    (kind : SpanKind)
    (width : Nat) : Prop :=
  ∃ width',
    token? d (withReturns s) = some (kind, width') ∧
      EndsAlike s 0 0 width width'

/- A line comment is as wide as before. -/
theorem token?_withReturns_of_isLineComment
    (hReturn : carriageReturn ∉ s)
    (hLine : kind.isLineComment = true)
    (h : token? d s = some (kind, width)) :
    token? d (withReturns s) = some (kind, width) := by
  rcases ((lexeme_of_token? h).endsLine hLine).1 with ⟨rest, rfl⟩
  have hToken := token?_slashes d (withReturns rest)
  rw [ ← withReturns_append_of_not_mem (by decide),
    lineCommentKind_withReturns,
    lineCommentWidth_withReturns hReturn] at hToken
  rw [hToken, ← h, token?_slashes]

/- So it ends alike. -/
theorem tokenAlike_lineComment
    (hReturn : carriageReturn ∉ s)
    (hLine : kind.isLineComment = true)
    (h : token? d s = some (kind, width)) :
    TokenAlike d s kind width := by
  have hLexeme := lexeme_of_token? h
  refine
    ⟨width, token?_withReturns_of_isLineComment hReturn hLine h,
      Or.inl ?_⟩
  exact
    KeepsPace.of_not_mem hLexeme.endsInside.le
      (hLexeme.endsLine hLine).2.not_mem_take

/- A block comment ends alike. -/
theorem tokenAlike_blockComment
    (h : token? d (blockOpener ++ rest) = some (kind, width)) :
    TokenAlike d (blockOpener ++ rest) kind width := by
  rw [token?_slash_star] at h
  cases h
  have hToken := token?_slash_star d (withReturns rest)
  rw [ ← withReturns_append_of_not_mem (by decide),
    blockCommentKind_withReturns] at hToken
  refine ⟨_, hToken, Or.inl ?_⟩
  rw [withReturns_append_of_not_mem (by decide)]
  apply KeepsPace.append (by decide)
  unfold blockCommentWidth
  cases d.nestedBlocks with
  | true => exact keepsPace_nestedWidth 1 2 2 rest
  | false =>
      exact
        keepsPace_widthThrough (by decide) (by decide) 2 2 rest

------------------------------------------------------------
-- Text
------------------------------------------------------------

/- Text of one line ends alike if it holds no line feed. -/
theorem endsAlike_oneLine
    {mark : UInt8}
    (hMark : mark ≠ lineFeed)
    (hReturn : mark ≠ carriageReturn)
    (hFeed :
      lineFeed ∉
        (mark :: rest).take
          (quotedWidth mark true false 1 rest)) :
    EndsAlike (mark :: rest) 0 0
      (quotedWidth mark true false 1 rest)
      (quotedWidth mark true false 1 (withReturns rest)) := by
  apply EndsAlike.cons hMark
  apply endsAlike_quotedWidth hMark hReturn
  intro n hWidth hMem
  rw [hWidth, Nat.add_comm, List.take_succ_cons] at hFeed
  exact hFeed (List.mem_cons_of_mem _ hMem)

/- Text in quotes ends alike. -/
theorem tokenAlike_quote
    (hFeed :
      ¬ tripleQuote <+: quote :: rest →
        lineFeed ∉ (quote :: rest).take width)
    (h : token? d (quote :: rest) = some (kind, width)) :
    TokenAlike d (quote :: rest) kind width := by
  have hTriple :
      tripleQuote <+: withReturns (quote :: rest) ↔
        tripleQuote <+: quote :: rest :=
    prefix_withReturns_iff (by decide)
  have hQuote :
      withReturns (quote :: rest) = quote :: withReturns rest :=
    withReturns_cons_of_ne (by decide) rest
  have hToken := token?_quote d (withReturns rest)
  rw [ ← hQuote] at hToken
  rw [token?_quote] at h
  simp only [ List.isPrefixOf_iff_prefix, hTriple] at h hToken
  split at h
  case isTrue hStands =>
    rw [if_pos hStands] at hToken
    cases h
    refine ⟨_, hToken, Or.inl ?_⟩
    have hRest : ∃ after, rest = [quote, quote] ++ after := by
      rcases hStands with ⟨after, hAfter⟩
      exact ⟨after, (List.cons.inj hAfter).2.symm⟩
    rcases hRest with ⟨after, rfl⟩
    rw [withReturns_append_of_not_mem (by decide)]
    change KeepsPace (tripleQuote ++ after) _ _ _ _
    apply KeepsPace.append (by decide)
    exact
      keepsPace_widthThrough (by decide) (by decide) 3 3 after
  case isFalse hOther =>
    rw [if_neg hOther] at hToken
    cases h
    exact
      ⟨_, hToken,
        endsAlike_oneLine (by decide) (by decide)
          (hFeed hOther)⟩

/- What an apostrophe opens ends alike. -/
theorem tokenAlike_apostrophe
    (hFeed : lineFeed ∉ (apostrophe :: rest).take width)
    (h : token? d (apostrophe :: rest) = some (kind, width)) :
    TokenAlike d (apostrophe :: rest) kind width := by
  have hLe := (lexeme_of_token? h).endsInside.le
  have hToken := token?_apostrophe d (withReturns rest)
  rw [ ← withReturns_cons_of_ne (by decide)] at hToken
  rw [token?_apostrophe] at h
  cases hRule : d.apostrophe with
  | text =>
      rw [hRule] at h hToken
      cases h
      exact
        ⟨_, hToken,
          endsAlike_oneLine (by decide) (by decide) hFeed⟩
  | character =>
      rw [hRule] at h hToken
      rcases Option.map_eq_some_iff.mp h with
        ⟨found, hFound, hValue⟩
      cases hValue
      rcases exists_of_characterLiteralWidth? hFound with
        ⟨body, after, rfl, hBody, rfl⟩
      have hBodyFeed : lineFeed ∉ body := by
        intro hMem
        apply hFeed
        rw [List.take_succ_cons, List.take_length_add_append]
        exact
          List.mem_cons_of_mem _ (List.mem_append_left _ hMem)
      have hRest :
          withReturns (body ++ apostrophe :: after) =
            body ++ apostrophe :: withReturns after := by
        rw [withReturns_append_of_not_mem hBodyFeed,
          withReturns_cons_of_ne (by decide)]
      dsimp only at hToken
      rw [hRest, characterLiteralWidth?_append hBody] at hToken
      exact
        ⟨_, hToken, Or.inl (KeepsPace.of_not_mem hLe hFeed)⟩
  | plain =>
      rw [hRule] at h
      cases h

/- What a backtick opens ends alike. -/
theorem tokenAlike_backtick
    (h : token? d (backtick :: rest) = some (kind, width)) :
    TokenAlike d (backtick :: rest) kind width := by
  have hToken := token?_backtick d (withReturns rest)
  rw [ ← withReturns_cons_of_ne (by decide)] at hToken
  rw [token?_backtick] at h
  have hPace :
      ∀ escapes,
        KeepsPace (backtick :: rest) 0 0
          (quotedWidth backtick escapes true 1 rest)
          (quotedWidth backtick escapes true 1
            (withReturns rest)) := by
    intro escapes
    apply KeepsPace.cons (by decide)
    exact
      keepsPace_quotedWidth (by decide) (by decide) escapes 1 1
        rest
  cases hRule : d.backtick with
  | escaped =>
      rw [hRule] at h hToken
      cases h
      exact ⟨_, hToken, Or.inl (hPace true)⟩
  | raw =>
      rw [hRule] at h hToken
      cases h
      exact ⟨_, hToken, Or.inl (hPace false)⟩
  | plain =>
      rw [hRule] at h
      cases h

------------------------------------------------------------
-- Tokens
------------------------------------------------------------

/-
  A token ends alike in bytes with returns, when text of one
  line holds no line feed.
-/
theorem tokenAlike_of_token?
    (hReturn : carriageReturn ∉ s)
    (hText :
      kind = .text → lineFeed ∈ s.take width →
        tripleQuote <+: s ∨ [backtick] <+: s)
    (h : token? d s = some (kind, width)) :
    TokenAlike d s kind width := by
  have hOneLine :
      kind = .text → ¬ tripleQuote <+: s →
        ¬ [backtick] <+: s → lineFeed ∉ s.take width := by
    intro hKind hTriple hBacktick hMem
    rcases hText hKind hMem with hStands | hStands
    · exact hTriple hStands
    · exact hBacktick hStands
  have hApostrophe :
      kind = .text → [apostrophe] <+: s →
        TokenAlike d s kind width := by
    intro hKind hOpener
    rcases exists_rest hOpener with ⟨rest, rfl⟩
    refine tokenAlike_apostrophe (hOneLine hKind ?_ ?_) h
    · simp [tripleQuote, quote, apostrophe]
    · simp [backtick, apostrophe]
  cases lexeme_of_token? h with
  | lineComment _ hKind _ =>
      exact tokenAlike_lineComment hReturn (by cases hKind <;> rfl) h
  | flatBlock _ hOpener _ _ =>
      rcases hOpener with ⟨rest, rfl⟩
      exact tokenAlike_blockComment h
  | nestedBlock _ hOpener _ _ =>
      rcases hOpener with ⟨rest, rfl⟩
      exact tokenAlike_blockComment h
  | tripleQuoted hOpener _ =>
      rcases hOpener with ⟨rest, rfl⟩
      exact
        tokenAlike_quote
          (fun hOther => absurd (List.prefix_append _ _) hOther) h
  | quoted hOpener hSingle _ =>
      rcases exists_rest hOpener with ⟨rest, rfl⟩
      refine tokenAlike_quote (fun _ => hOneLine rfl hSingle ?_) h
      simp [quote, backtick]
  | apostrophes _ hOpener _ => exact hApostrophe rfl hOpener
  | character _ hOpener _ => exact hApostrophe rfl hOpener
  | backticks _ hOpener _ =>
      rcases exists_rest hOpener with ⟨rest, rfl⟩
      exact tokenAlike_backtick h
  | rawBackticks _ hOpener _ =>
      rcases exists_rest hOpener with ⟨rest, rfl⟩
      exact tokenAlike_backtick h

------------------------------------------------------------
-- Openers
------------------------------------------------------------

/-
  An apostrophe stands in front of a byte that leads a longer
  character, and the line ends inside that character.
-/
def CutsCharacter : Bytes → Prop
  | a :: b :: rest =>
      a = apostrophe ∧
        lineFeed ∈ rest.take (characterWidth b - 1)
  | _ => False

/- Such a character has its first byte behind the apostrophe. -/
theorem CutsCharacter.exists_rest
    (h : CutsCharacter s) :
    ∃ b rest,
      s = apostrophe :: b :: rest ∧
        lineFeed ∈ rest.take (characterWidth b - 1) := by
  match s, h with
  | _ :: b :: rest, ⟨rfl, hFeed⟩ => exact ⟨b, rest, rfl, hFeed⟩

instance : DecidablePred CutsCharacter
  | [] => inferInstanceAs (Decidable False)
  | [_] => inferInstanceAs (Decidable False)
  | _ :: _ :: _ => inferInstanceAs (Decidable (_ ∧ _))

/-
  Where no opener begins, none begins in bytes with returns,
  unless a character behind an apostrophe is cut off.
-/
theorem opens_of_opens_withReturns
    (hLead : d.apostrophe = .character → ¬ CutsCharacter s)
    (h : Opens d (withReturns s)) :
    Opens d s := by
  have hStands :
      ∀ p, IsInLine p → p <+: withReturns s → p <+: s :=
    fun p hInLine => (prefix_withReturns_iff hInLine).mp
  cases h with
  | lineComment hOpener =>
      exact
        Opens.lineComment (hStands _ (by decide) hOpener)
  | blockComment hOpener =>
      exact
        Opens.blockComment (hStands _ (by decide) hOpener)
  | quote hOpener =>
      exact Opens.quote (hStands _ (by decide) hOpener)
  | apostrophe hText hOpener =>
      exact
        Opens.apostrophe hText (hStands _ (by decide) hOpener)
  | backtick hBacktick hOpener =>
      exact
        Opens.backtick hBacktick (hStands _ (by decide) hOpener)
  | @character width hCharacter hOpener hLiteral =>
      have hHere := hStands _ (by decide) hOpener
      rcases exists_rest hHere with ⟨rest, rfl⟩
      refine @Opens.character d _ width hCharacter hHere ?_
      rw [withReturns_cons_of_ne (by decide), List.drop_one,
        List.tail_cons] at hLiteral
      rw [List.drop_one, List.tail_cons]
      cases rest with
      | nil => exact hLiteral
      | cons b rest =>
          have hWhole :
              lineFeed ∉ rest.take (characterWidth b - 1) :=
            fun hMem => hLead hCharacter ⟨rfl, hMem⟩
          rw [characterLiteralWidth?_withReturns hWhole]
            at hLiteral
          · exact hLiteral
          · rintro rfl hHead
            rcases List.head?_eq_some_iff.mp hHead with
              ⟨after, rfl⟩
            rw [characterLiteralWidth?_escape] at hLiteral
            cases hLiteral

/- A blank byte opens nothing. -/
theorem not_opens_of_isBlank
    {b : UInt8}
    (hBlank : Ascii.isBlank b = true)
    (rest : Bytes) :
    ¬ Opens d (b :: rest) := by
  have hFirst :
      ∀ {c : UInt8} {opener : Bytes},
        Ascii.isBlank c = false →
          ¬ c :: opener <+: b :: rest := by
    intro c opener hOther hStands
    rw [List.cons_prefix_cons] at hStands
    rw [hStands.1, hBlank] at hOther
    cases hOther
  intro h
  cases h with
  | lineComment hOpener => exact hFirst (by decide) hOpener
  | blockComment hOpener => exact hFirst (by decide) hOpener
  | quote hOpener => exact hFirst (by decide) hOpener
  | apostrophe _ hOpener => exact hFirst (by decide) hOpener
  | character _ hOpener _ => exact hFirst (by decide) hOpener
  | backtick _ hOpener => exact hFirst (by decide) hOpener

end Lexer

end CommentLint
