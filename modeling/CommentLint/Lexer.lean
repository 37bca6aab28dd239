import CommentLint.Dialect
import CommentLint.Span
import CommentLint.Text.Utf8

/-
  Classification of source bytes into spans.

  Source is read from left to right.  Where an opener of the
  dialect begins, a token ends where its lexical rule says;
  any other byte is blank or plain.  The spans are the tokens
  and the longest runs of plain bytes, called code.  Every
  delimiter is ASCII, so bytes that are no valid text do no
  harm.

  Key definitions include:
    * `Lexer.token?`
    * `Lexer.pieces`
    * `Lexer.tokenize`

  Key results include:
    * `Lexer.pieces_token`
    * `Lexer.pieces_plain`
-/

namespace CommentLint

------------------------------------------------------------
-- Delimiters
------------------------------------------------------------

namespace Ascii

def lineFeed : UInt8 := 0x0A

def carriageReturn : UInt8 := 0x0D

def quote : UInt8 := 0x22

def apostrophe : UInt8 := 0x27

def star : UInt8 := 0x2A

def slash : UInt8 := 0x2F

def backslash : UInt8 := 0x5C

def backtick : UInt8 := 0x60

/- Space, tab, line feed, vertical tab, form feed, carriage return. -/
def isBlank (b : UInt8) : Bool :=
  b == 0x20 || (0x09 ≤ b && b ≤ 0x0D)

end Ascii

namespace Lexer

open Ascii

/- The opener of a line comment. -/
def lineOpener : Bytes :=
  [slash, slash]

/- The opener of a block comment. -/
def blockOpener : Bytes :=
  [slash, star]

/- The closer of a block comment. -/
def blockCloser : Bytes :=
  [star, slash]

/- The opener and closer of text over several lines. -/
def tripleQuote : Bytes :=
  [quote, quote, quote]

------------------------------------------------------------
-- Line Comments
------------------------------------------------------------

/- Exactly three slashes lead a documentation comment. -/
def lineCommentKind (s : Bytes) : SpanKind :=
  if (lineOpener ++ [slash]).isPrefixOf s ∧
      ¬ (lineOpener ++ lineOpener).isPrefixOf s
  then .docComment
  else .comment

/-
  A line comment ends before the line feed, and before one
  carriage return that stands there.
-/
def lineCommentWidth (s : Bytes) : Nat :=
  let line := s.takeWhile (· != lineFeed)
  if line.getLast? = some carriageReturn then line.length - 1
  else line.length

------------------------------------------------------------
-- Block Comments
------------------------------------------------------------

/- Two stars lead a documentation block, unless they close it. -/
def blockCommentKind (s : Bytes) : SpanKind :=
  if (blockOpener ++ [star]).isPrefixOf s ∧
      ¬ (blockOpener ++ blockCloser).isPrefixOf s
  then .docBlockComment
  else .blockComment

/-
  The bytes passed by once the closer has been passed, or all
  bytes when there is none; `passed` bytes came before.
-/
def widthThrough
    (closer : Bytes)
    (passed : Nat) :
    Bytes → Nat
  | [] => passed
  | b :: s =>
      if closer.isPrefixOf (b :: s) then passed + closer.length
      else widthThrough closer (passed + 1) s

/-
  The bytes passed by once `depth` open comments are closed,
  or all bytes when some stay open.
-/
def nestedWidth
    (depth passed : Nat) :
    Bytes → Nat
  | [] => passed
  | [_] => passed + 1
  | a :: b :: s =>
      if a = slash ∧ b = star then
        nestedWidth (depth + 1) (passed + 2) s
      else if a = star ∧ b = slash then
        if depth ≤ 1 then passed + 2
        else nestedWidth (depth - 1) (passed + 2) s
      else nestedWidth depth (passed + 1) (b :: s)
termination_by structural s => s

/- The width of the block comment at the start of the bytes. -/
def blockCommentWidth
    (nested : Bool)
    (s : Bytes) : Nat :=
  if nested then nestedWidth 1 2 (s.drop 2)
  else widthThrough blockCloser 2 (s.drop 2)

------------------------------------------------------------
-- Quoted Text
------------------------------------------------------------

/-
  The bytes passed by once the quote has been passed.  A
  backslash hides the byte after it, where text has escapes;
  text of one line ends before its line feed.
-/
def quotedWidth
    (mark : UInt8)
    (escapes multiline : Bool)
    (passed : Nat) :
    Bytes → Nat
  | [] => passed
  | [b] =>
      if escapes && b == backslash then passed + 1
      else if b == mark then passed + 1
      else if b == lineFeed && !multiline then passed
      else passed + 1
  | b :: c :: s =>
      if escapes && b == backslash then
        quotedWidth mark escapes multiline (passed + 2) s
      else if b == mark then passed + 1
      else if b == lineFeed && !multiline then passed
      else
        quotedWidth mark escapes multiline (passed + 1) (c :: s)
termination_by structural s => s

------------------------------------------------------------
-- Character Literals
------------------------------------------------------------

/- How many bytes a character takes, by its first byte. -/
def characterWidth (lead : UInt8) : Nat :=
  if 0xF0 ≤ lead then 4
  else if 0xE0 ≤ lead then 3
  else if 0xC0 ≤ lead then 2
  else 1

/- The bytes before the first apostrophe, if it is on this line. -/
def toApostrophe?
    (passed : Nat) :
    Bytes → Option Nat
  | [] => none
  | b :: s =>
      if b = apostrophe then some passed
      else if b = lineFeed then none
      else toApostrophe? (passed + 1) s

/- How many bytes after the first escaped one may end an escape. -/
def escapeWindow : Nat :=
  10

/-
  The width of a complete character literal, given the bytes
  after its apostrophe: one character, or a backslash, a byte
  and the rest of a short escape.
-/
def characterLiteralWidth? : Bytes → Option Nat
  | [] => none
  | b :: s =>
      if b = lineFeed ∨ b = apostrophe then none
      else if b = backslash then
        (toApostrophe? 0 ((s.drop 1).take escapeWindow)).map
          (· + 4)
      else
        let width := characterWidth b
        if (s.drop (width - 1)).head? = some apostrophe then
          some (width + 2)
        else none

------------------------------------------------------------
-- Tokens
------------------------------------------------------------

/-
  The token at the start of the bytes, as its kind and its
  width, where an opener of the dialect begins.
-/
def token?
    (d : Dialect)
    (s : Bytes) :
    Option (SpanKind × Nat) :=
  if lineOpener.isPrefixOf s then
    some (lineCommentKind s, lineCommentWidth s)
  else if blockOpener.isPrefixOf s then
    some (blockCommentKind s, blockCommentWidth d.nestedBlocks s)
  else if tripleQuote.isPrefixOf s then
    some (.text, widthThrough tripleQuote 3 (s.drop 3))
  else
    match s with
    | [] => none
    | b :: rest =>
        if b = quote then
          some (.text, quotedWidth quote true false 1 rest)
        else if b = apostrophe then
          match d.apostrophe with
          | .text =>
              some
                (.text, quotedWidth apostrophe true false 1 rest)
          | .character =>
              (characterLiteralWidth? rest).map
                fun width => (.text, width)
          | .plain => none
        else if b = backtick then
          match d.backtick with
          | .escaped =>
              some (.text, quotedWidth backtick true true 1 rest)
          | .raw =>
              some (.text, quotedWidth backtick false true 1 rest)
          | .plain => none
        else none

------------------------------------------------------------
-- Pieces
------------------------------------------------------------

/- A token, or a byte that no token covers. -/
inductive Piece where
| token (kind : SpanKind) (width : Nat)
| blank
| plain
deriving DecidableEq, Repr

/- The piece for a byte that no token covers. -/
def Piece.ofByte (b : UInt8) : Piece :=
  if Ascii.isBlank b then .blank else .plain

/-
  Cut bytes into pieces behind those already cut, after
  passing over the bytes that belong to the latest of them.
-/
def piecesOnto
    (d : Dialect)
    (done : List Piece) :
    Nat → Bytes → List Piece
  | _, [] => done.reverse
  | owed + 1, _ :: s => piecesOnto d done owed s
  | 0, b :: s =>
      match token? d (b :: s) with
      | some (kind, width) =>
          piecesOnto d (.token kind width :: done) (width - 1) s
      | none => piecesOnto d (Piece.ofByte b :: done) 0 s

/- Cut bytes into pieces. -/
def pieces
    (d : Dialect)
    (s : Bytes) : List Piece :=
  piecesOnto d [] 0 s

/- Pieces already cut stand before the pieces of the rest. -/
theorem piecesOnto_eq
    (d : Dialect)
    (done : List Piece)
    (owed : Nat)
    (s : Bytes) :
    piecesOnto d done owed s =
      done.reverse ++ pieces d (s.drop owed) := by
  induction s generalizing done owed with
  | nil => cases owed <;> simp [piecesOnto, pieces]
  | cons b s ih =>
      cases owed with
      | succ n => simp [piecesOnto, ih]
      | zero =>
          cases hToken : token? d (b :: s) with
          | none =>
              simp [piecesOnto, pieces, hToken]
              rw [ih, ih [Piece.ofByte b]]
              simp
          | some t =>
              simp [piecesOnto, pieces, hToken]
              rw [ih, ih [.token t.1 t.2]]
              simp

/- No bytes make no pieces. -/
@[simp] theorem pieces_nil
    (d : Dialect) :
    pieces d [] = [] :=
  rfl

/- A token is followed by the pieces of what it leaves. -/
theorem pieces_token
    {d : Dialect}
    {b : UInt8}
    {s : Bytes}
    {kind : SpanKind}
    {width : Nat}
    (h : token? d (b :: s) = some (kind, width)) :
    pieces d (b :: s) =
      .token kind width :: pieces d (s.drop (width - 1)) := by
  simp [pieces, piecesOnto, h]
  rw [piecesOnto_eq]
  simp [pieces]

/- A byte that opens nothing is a piece of its own. -/
theorem pieces_plain
    {d : Dialect}
    {b : UInt8}
    {s : Bytes}
    (h : token? d (b :: s) = none) :
    pieces d (b :: s) = Piece.ofByte b :: pieces d s := by
  simp [pieces, piecesOnto, h]
  rw [piecesOnto_eq]
  simp [pieces]

------------------------------------------------------------
-- Spans
------------------------------------------------------------

/-
  The spans of pieces that start at an offset, behind those
  already found; `run` plain bytes stand right before it.
-/
def spansOnto
    (done : List Span)
    (offset : Nat)
    (run : Nat) :
    List Piece → List Span
  | [] => (flush done offset run).reverse
  | .token kind width :: rest =>
      spansOnto (⟨kind, offset, width⟩ :: flush done offset run)
        (offset + width) 0 rest
  | .blank :: rest =>
      spansOnto (flush done offset run) (offset + 1) 0 rest
  | .plain :: rest => spansOnto done (offset + 1) (run + 1) rest
where
  flush
      (done : List Span)
      (offset run : Nat) : List Span :=
    if run = 0 then done
    else ⟨.code, (offset - run : Nat), run⟩ :: done

/- The spans of a source file. -/
def tokenize
    (d : Dialect)
    (data : Bytes) : List Span :=
  spansOnto [] 0 0 (pieces d data)

end Lexer

end CommentLint
