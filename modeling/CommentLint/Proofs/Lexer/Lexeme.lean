import CommentLint.Proofs.Lexer.BlockMarks
import CommentLint.Proofs.Lexer.TokenEnds
import Mathlib.Tactic.Common

/-
  Lexical rules of a dialect, and the tokens that follow them.

  A lexeme starts with an opener that the dialect has and ends
  where the rule of that opener says.  The lexer takes a
  lexeme where one starts and nothing where no opener begins.

  Key definitions include:
    * `Lexer.Opens`
    * `Lexer.Lexeme`

  Key results include:
    * `Lexer.lexeme_of_token?`
    * `Lexer.not_opens_of_token?`
-/

namespace CommentLint

namespace Lexer

open Ascii

------------------------------------------------------------
-- Openers
------------------------------------------------------------

/- An opener of the dialect begins at the start of the bytes. -/
inductive Opens
    (d : Dialect)
    (s : Bytes) : Prop where
| lineComment :
    lineOpener <+: s → Opens d s
| blockComment :
    blockOpener <+: s → Opens d s
| quote :
    [quote] <+: s → Opens d s
| apostrophe :
    d.apostrophe = .text →
    [apostrophe] <+: s → Opens d s
| character {width : Nat} :
    d.apostrophe = .character →
    [Ascii.apostrophe] <+: s →
    characterLiteralWidth? (s.drop 1) = some width →
    Opens d s
| backtick :
    d.backtick ≠ .plain →
    [backtick] <+: s → Opens d s

------------------------------------------------------------
-- Kinds of Comments
------------------------------------------------------------

/- How many slashes lead. -/
def leadingSlashes (s : Bytes) : Nat :=
  (s.takeWhile (· == slash)).length

/- A line comment documents when exactly three slashes lead. -/
inductive LineKind
    (s : Bytes) :
    SpanKind → Prop where
| doc :
    leadingSlashes s = 3 → LineKind s .docComment
| plain :
    leadingSlashes s ≠ 3 → LineKind s .comment

/- A block documents when two stars lead and do not close it. -/
inductive BlockKind
    (s : Bytes) :
    SpanKind → Prop where
| doc :
    blockOpener ++ [star] <+: s →
    ¬ blockOpener ++ blockCloser <+: s →
    BlockKind s .docBlockComment
| single :
    ¬ blockOpener ++ [star] <+: s →
    BlockKind s .blockComment
| closed :
    blockOpener ++ blockCloser <+: s →
    BlockKind s .blockComment

/- As many slashes stand in front as lead. -/
theorem replicate_slash_prefix_iff
    {n : Nat}
    {s : Bytes} :
    List.replicate n slash <+: s ↔ n ≤ leadingSlashes s := by
  unfold leadingSlashes
  induction n generalizing s with
  | zero => simp
  | succ n ih =>
      rw [List.replicate_succ]
      cases s with
      | nil => simp
      | cons b s =>
          rw [List.cons_prefix_cons, ih]
          by_cases hSlash : b = slash
          · simp [hSlash]
          · simp [hSlash, Ne.symm hSlash]

/- The kind of a line comment is told by its slashes. -/
theorem lineKind_lineCommentKind
    (s : Bytes) :
    LineKind s (lineCommentKind s) := by
  have hThree :
      (lineOpener ++ [slash]).isPrefixOf s = true ↔
        3 ≤ leadingSlashes s := by
    rw [ List.isPrefixOf_iff_prefix]
    exact replicate_slash_prefix_iff (n := 3)
  have hFour :
      (lineOpener ++ lineOpener).isPrefixOf s = true ↔
        4 ≤ leadingSlashes s := by
    rw [ List.isPrefixOf_iff_prefix]
    exact replicate_slash_prefix_iff (n := 4)
  unfold lineCommentKind
  simp only [hThree, hFour]
  split
  · exact LineKind.doc (by omega)
  · exact LineKind.plain (by omega)

/- The kind of a block comment is told by its first bytes. -/
theorem blockKind_blockCommentKind
    (s : Bytes) :
    BlockKind s (blockCommentKind s) := by
  unfold blockCommentKind
  simp only [ List.isPrefixOf_iff_prefix]
  split
  case isTrue h => exact BlockKind.doc h.1 h.2
  case isFalse h =>
    by_cases hStars : blockOpener ++ [star] <+: s
    · exact
        BlockKind.closed
          (not_not.mp fun hOpen => h ⟨hStars, hOpen⟩)
    · exact BlockKind.single hStars

------------------------------------------------------------
-- First Bytes
------------------------------------------------------------

/- What starts with a byte has a rest behind it. -/
theorem exists_rest
    {b : UInt8}
    {s : Bytes}
    (h : [b] <+: s) :
    ∃ rest, s = b :: rest := by
  rcases h with ⟨rest, rfl⟩
  exact ⟨rest, rfl⟩

/- Two slashes open a line comment. -/
theorem token?_slashes
    (d : Dialect)
    (rest : Bytes) :
    token? d (lineOpener ++ rest) =
      some
        (lineCommentKind (lineOpener ++ rest),
          lineCommentWidth (lineOpener ++ rest)) := by
  rfl

/- A slash and a star open a block comment. -/
theorem token?_slash_star
    (d : Dialect)
    (rest : Bytes) :
    token? d (blockOpener ++ rest) =
      some
        (blockCommentKind (blockOpener ++ rest),
          blockCommentWidth d.nestedBlocks
            (blockOpener ++ rest)) := by
  rfl

/- A quote opens text over several lines if two more follow. -/
theorem token?_quote
    (d : Dialect)
    (rest : Bytes) :
    token? d (quote :: rest) =
      if tripleQuote.isPrefixOf (quote :: rest) then
        some (.text, widthThrough tripleQuote 3 (rest.drop 2))
      else some (.text, quotedWidth quote true false 1 rest) := by
  rfl

/- An apostrophe is read by the rule of the dialect. -/
theorem token?_apostrophe
    (d : Dialect)
    (rest : Bytes) :
    token? d (apostrophe :: rest) =
      match d.apostrophe with
      | .text =>
          some (.text, quotedWidth apostrophe true false 1 rest)
      | .character =>
          (characterLiteralWidth? rest).map
            fun width => (.text, width)
      | .plain => none := by
  rfl

/- A backtick is read by the rule of the dialect. -/
theorem token?_backtick
    (d : Dialect)
    (rest : Bytes) :
    token? d (backtick :: rest) =
      match d.backtick with
      | .escaped =>
          some (.text, quotedWidth backtick true true 1 rest)
      | .raw =>
          some (.text, quotedWidth backtick false true 1 rest)
      | .plain => none := by
  rfl

------------------------------------------------------------
-- Lexemes
------------------------------------------------------------

/-
  The kind and the width of a token at the start of the bytes,
  by the lexical rules of the dialect.
-/
inductive Lexeme
    (d : Dialect)
    (s : Bytes) :
    SpanKind → Nat → Prop where
| lineComment {kind : SpanKind} {width : Nat} :
    lineOpener <+: s →
    LineKind s kind →
    EndsLine s width →
    Lexeme d s kind width
| flatBlock {kind : SpanKind} {width : Nat} :
    d.nestedBlocks = false →
    blockOpener <+: s →
    BlockKind s kind →
    EndsThrough blockCloser 2 s width →
    Lexeme d s kind width
| nestedBlock {kind : SpanKind} {width : Nat} :
    d.nestedBlocks = true →
    blockOpener <+: s →
    BlockKind s kind →
    EndsBalanced s width →
    Lexeme d s kind width
| tripleQuoted {width : Nat} :
    tripleQuote <+: s →
    EndsThrough tripleQuote 3 s width →
    Lexeme d s .text width
| quoted {width : Nat} :
    [quote] <+: s →
    ¬ tripleQuote <+: s →
    EndsQuoted quote true false 1 s width →
    Lexeme d s .text width
| apostrophes {width : Nat} :
    d.apostrophe = .text →
    [apostrophe] <+: s →
    EndsQuoted apostrophe true false 1 s width →
    Lexeme d s .text width
| character {width : Nat} :
    d.apostrophe = .character →
    [apostrophe] <+: s →
    characterLiteralWidth? (s.drop 1) = some width →
    Lexeme d s .text width
| backticks {width : Nat} :
    d.backtick = .escaped →
    [backtick] <+: s →
    EndsQuoted backtick true true 1 s width →
    Lexeme d s .text width
| rawBackticks {width : Nat} :
    d.backtick = .raw →
    [backtick] <+: s →
    EndsQuoted backtick false true 1 s width →
    Lexeme d s .text width

/- A lexeme starts with an opener. -/
theorem Lexeme.opens
    {d : Dialect}
    {s : Bytes}
    {kind : SpanKind}
    {width : Nat}
    (h : Lexeme d s kind width) :
    Opens d s := by
  cases h with
  | lineComment hOpener => exact Opens.lineComment hOpener
  | flatBlock _ hOpener => exact Opens.blockComment hOpener
  | nestedBlock _ hOpener => exact Opens.blockComment hOpener
  | tripleQuoted hOpener =>
      have hQuote : [quote] <+: tripleQuote := by
        simp [tripleQuote]
      exact Opens.quote (hQuote.trans hOpener)
  | quoted hOpener => exact Opens.quote hOpener
  | apostrophes hText hOpener =>
      exact Opens.apostrophe hText hOpener
  | character hCharacter hOpener hWidth =>
      exact Opens.character hCharacter hOpener hWidth
  | backticks hEscaped hOpener =>
      exact Opens.backtick (by simp [hEscaped]) hOpener
  | rawBackticks hRaw hOpener =>
      exact Opens.backtick (by simp [hRaw]) hOpener

/- A lexeme is no code. -/
theorem Lexeme.kind_ne_code
    {d : Dialect}
    {s : Bytes}
    {kind : SpanKind}
    {width : Nat}
    (h : Lexeme d s kind width) :
    kind ≠ .code := by
  rintro rfl
  cases h with
  | lineComment _ hKind => cases hKind
  | flatBlock _ _ hKind => cases hKind
  | nestedBlock _ _ hKind => cases hKind

------------------------------------------------------------
-- The Lexer
------------------------------------------------------------

/- What stands in front of the bytes splits off them. -/
theorem endsThrough_drop
    {opener closer s : Bytes}
    (hCloser : closer ≠ [])
    (hOpener : opener <+: s) :
    EndsThrough closer opener.length s
      (widthThrough closer opener.length
        (s.drop opener.length)) := by
  rcases hOpener with ⟨rest, rfl⟩
  rw [List.drop_left]
  exact endsThrough_widthThrough hCloser opener rest

/- A block comment is a lexeme. -/
theorem lexeme_blockComment
    {s : Bytes}
    (d : Dialect)
    (hOpener : blockOpener <+: s) :
    Lexeme d s (blockCommentKind s)
      (blockCommentWidth d.nestedBlocks s) := by
  cases hNested : d.nestedBlocks with
  | false =>
      exact
        Lexeme.flatBlock hNested hOpener
          (blockKind_blockCommentKind s)
          (endsThrough_drop (by simp [blockCloser]) hOpener)
  | true =>
      exact
        Lexeme.nestedBlock hNested hOpener
          (blockKind_blockCommentKind s)
          (endsBalanced_blockCommentWidth hOpener)

/- What an apostrophe opens is a lexeme. -/
theorem lexeme_apostrophe
    {d : Dialect}
    {rest : Bytes}
    {kind : SpanKind}
    {width : Nat}
    (h : token? d (apostrophe :: rest) = some (kind, width)) :
    Lexeme d (apostrophe :: rest) kind width := by
  rw [token?_apostrophe] at h
  cases hApostrophe : d.apostrophe with
  | text =>
      rw [hApostrophe] at h
      cases h
      exact
        Lexeme.apostrophes hApostrophe (by simp)
          (endsQuoted_cons (by decide) rest)
  | character =>
      rw [hApostrophe] at h
      rcases Option.map_eq_some_iff.mp h with
        ⟨found, hFound, hToken⟩
      cases hToken
      exact Lexeme.character hApostrophe (by simp) hFound
  | plain =>
      rw [hApostrophe] at h
      cases h

/- What a backtick opens is a lexeme. -/
theorem lexeme_backtick
    {d : Dialect}
    {rest : Bytes}
    {kind : SpanKind}
    {width : Nat}
    (h : token? d (backtick :: rest) = some (kind, width)) :
    Lexeme d (backtick :: rest) kind width := by
  rw [token?_backtick] at h
  cases hBacktick : d.backtick with
  | escaped =>
      rw [hBacktick] at h
      cases h
      exact
        Lexeme.backticks hBacktick (by simp)
          (endsQuoted_cons (by decide) rest)
  | raw =>
      rw [hBacktick] at h
      cases h
      exact
        Lexeme.rawBackticks hBacktick (by simp)
          (endsQuoted_cons (by decide) rest)
  | plain =>
      rw [hBacktick] at h
      cases h

/- The lexer takes lexemes. -/
theorem lexeme_of_token?
    {d : Dialect}
    {s : Bytes}
    {kind : SpanKind}
    {width : Nat}
    (h : token? d s = some (kind, width)) :
    Lexeme d s kind width := by
  unfold token? at h
  simp only [ List.isPrefixOf_iff_prefix] at h
  split at h
  case isTrue hOpener =>
    cases h
    exact
      Lexeme.lineComment hOpener (lineKind_lineCommentKind s)
        (endsLine_lineCommentWidth s)
  case isFalse hLine =>
    split at h
    case isTrue hOpener =>
      cases h
      exact lexeme_blockComment d hOpener
    case isFalse hBlock =>
      split at h
      case isTrue hOpener =>
        cases h
        exact
          Lexeme.tripleQuoted hOpener
            (endsThrough_drop (by simp [tripleQuote]) hOpener)
      case isFalse hTriple =>
        cases s with
        | nil => cases h
        | cons b rest =>
            dsimp only at h
            split at h
            case isTrue hQuote =>
              subst hQuote
              cases h
              exact
                Lexeme.quoted (by simp) hTriple
                  (endsQuoted_cons (by decide) rest)
            case isFalse hQuote =>
              split at h
              case isTrue hApostrophe =>
                subst hApostrophe
                exact lexeme_apostrophe h
              case isFalse hOther =>
                split at h
                case isTrue hBacktick =>
                  subst hBacktick
                  exact lexeme_backtick h
                case isFalse hPlain => cases h

/- Where no token is taken, no opener begins. -/
theorem not_opens_of_token?
    {d : Dialect}
    {s : Bytes}
    (h : token? d s = none) :
    ¬ Opens d s := by
  intro hOpens
  cases hOpens with
  | lineComment hOpener =>
      rcases hOpener with ⟨rest, rfl⟩
      cases (token?_slashes d rest).symm.trans h
  | blockComment hOpener =>
      rcases hOpener with ⟨rest, rfl⟩
      cases (token?_slash_star d rest).symm.trans h
  | quote hOpener =>
      rcases exists_rest hOpener with ⟨rest, rfl⟩
      rw [token?_quote] at h
      split at h <;> cases h
  | apostrophe hText hOpener =>
      rcases exists_rest hOpener with ⟨rest, rfl⟩
      rw [token?_apostrophe, hText] at h
      cases h
  | character hCharacter hOpener hWidth =>
      rcases exists_rest hOpener with ⟨rest, rfl⟩
      rw [List.drop_one, List.tail_cons] at hWidth
      rw [token?_apostrophe, hCharacter, hWidth] at h
      cases h
  | backtick hBacktick hOpener =>
      rcases exists_rest hOpener with ⟨rest, rfl⟩
      rw [token?_backtick] at h
      cases hRule : d.backtick with
      | escaped => simp [hRule] at h
      | raw => simp [hRule] at h
      | plain => exact hBacktick hRule

end Lexer

end CommentLint
