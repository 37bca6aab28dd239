import CommentLint.Text.Hex

/-
  Keys, quoted texts and comments of TOML documents.

  Readers take the characters that are left and give what
  they read with the characters after it.  Line ends are line
  feeds alone.

  Key definitions include:
    * `Toml.Error`
    * `Toml.Read`
    * `Toml.readKey`
    * `Toml.readBasic`
    * `Toml.readLiteral`
    * `Toml.skipComment`
-/

namespace CommentLint

namespace Toml

------------------------------------------------------------
-- Readers
------------------------------------------------------------

/- Why a document cannot be read. -/
inductive Error where
| malformed
| tooManyDigits (count : Nat)
| tooDeep
deriving DecidableEq, Repr

/- What a reader gives: a value and the characters after it. -/
abbrev Read (α : Type) :=
  Except Error (α × List Char)

/- A reader that finds no way on. -/
def fail {α : Type} : Except Error α :=
  .error .malformed

/- Spaces and tabs. -/
def isGap (c : Char) : Bool :=
  c == ' ' || c == '\t'

/- Spaces, tabs and line feeds. -/
def isWideGap (c : Char) : Bool :=
  isGap c || c == '\n'

/- The characters after a gap. -/
def skipGap (s : List Char) : List Char :=
  s.dropWhile isGap

/- Control characters, which no text may hold; a tab is not one. -/
def isControl (c : Char) : Bool :=
  (c.toNat < 0x20 && c != '\t') || c.toNat == 0x7F

/- Control characters that no text of several lines may hold. -/
def isWideControl (c : Char) : Bool :=
  isControl c && c != '\n'

------------------------------------------------------------
-- Comments
------------------------------------------------------------

/- The characters after a comment, where one starts. -/
def skipComment (s : List Char) :
    Except Error (List Char) :=
  match s with
  | '#' :: rest =>
      let body := rest.takeWhile (· != '\n')
      if body.any isControl then fail
      else .ok (rest.dropWhile (· != '\n'))
  | _ => .ok s

/- The characters after gaps, line ends and comments. -/
def skipLines :
    Nat → List Char → Except Error (List Char)
  | 0, s => .ok s
  | fuel + 1, s =>
      match s.dropWhile isWideGap with
      | '#' :: rest =>
          match skipComment ('#' :: rest) with
          | .ok rest => skipLines fuel rest
          | .error e => .error e
      | rest => .ok rest

------------------------------------------------------------
-- Escapes
------------------------------------------------------------

/- The character that a letter stands for after a backslash. -/
def unescape? (c : Char) : Option Char :=
  match c with
  | 'b' => some '\x08'
  | 't' => some '\t'
  | 'n' => some '\n'
  | 'f' => some '\x0c'
  | 'r' => some '\r'
  | '"' => some '"'
  | '\\' => some '\\'
  | _ => none

/- Read a character written as a fixed number of hexadecimal digits. -/
def readHexChar
    (width : Nat)
    (s : List Char) : Read Char :=
  match (s.take width).mapM hexValue? with
  | none => fail
  | some digits =>
      let n := digits.foldl (fun n d => n * 16 + d) 0
      if digits.length = width ∧
          (n < 0xD800 ∨ (0xDFFF < n ∧ n < 0x110000))
      then .ok (Char.ofNat n, s.drop width)
      else fail

/-
  The characters after a line end that a backslash hides,
  with the gap that starts the next line.
-/
def skipHiddenLineEnd (s : List Char) :
    Except Error (List Char) :=
  match skipGap s with
  | [] => .ok []
  | '\n' :: rest => .ok (rest.dropWhile isWideGap)
  | _ => fail

------------------------------------------------------------
-- Quoted Texts
------------------------------------------------------------

/- Read the text of an escape after its backslash. -/
def readEscape
    (multiline : Bool)
    (s : List Char) : Read (List Char) :=
  match s with
  | [] => fail
  | c :: rest =>
      if multiline && isWideGap c then
        (skipHiddenLineEnd s).map fun rest => ([], rest)
      else if c = 'u' then
        (readHexChar 4 rest).map fun (c, rest) => ([c], rest)
      else if c = 'U' then
        (readHexChar 8 rest).map fun (c, rest) => ([c], rest)
      else
        match unescape? c with
        | some c => .ok ([c], rest)
        | none => fail

/-
  Read a text with escapes up to its closing quotes, behind
  the characters read already, which are given reversed.
-/
def readBasicOnto
    (multiline : Bool) :
    Nat → List Char → List Char → Read (List Char)
  | 0, _, _ => fail
  | _ + 1, _, [] => fail
  | fuel + 1, done, '"' :: rest =>
      if multiline then
        match rest with
        | '"' :: '"' :: rest => .ok (done.reverse, rest)
        | rest => readBasicOnto multiline fuel ('"' :: done) rest
      else .ok (done.reverse, rest)
  | fuel + 1, done, '\\' :: rest =>
      match readEscape multiline rest with
      | .ok (text, rest) =>
          readBasicOnto multiline fuel (text.reverse ++ done) rest
      | .error e => .error e
  | fuel + 1, done, c :: rest =>
      if (if multiline then isWideControl c else isControl c)
      then fail
      else readBasicOnto multiline fuel (c :: done) rest

/- Read a text with escapes after its opening quotes. -/
def readBasic
    (multiline : Bool)
    (s : List Char) : Read (List Char) :=
  readBasicOnto multiline (s.length + 1) [] s

/- Read a text without escapes after its opening apostrophe. -/
def readLiteral (s : List Char) : Read (List Char) :=
  let body := s.takeWhile (· != '\'')
  match s.dropWhile (· != '\'') with
  | [] => fail
  | _ :: rest =>
      if body.any isControl then fail else .ok (body, rest)

/-
  Read a text of several lines without escapes, behind the
  characters read already, which are given reversed.
-/
def readWideLiteralOnto
    (done : List Char) :
    List Char → Read (List Char)
  | '\'' :: '\'' :: '\'' :: rest => .ok (done.reverse, rest)
  | c :: rest =>
      if isWideControl c then fail
      else readWideLiteralOnto (c :: done) rest
  | [] => fail

/- The characters after a line feed, where one starts. -/
def skipLineFeed (s : List Char) : List Char :=
  match s with
  | '\n' :: rest => rest
  | rest => rest

/-
  Up to two quotes that stand right after the closing quotes
  of a text of several lines belong to the text.
-/
def withExtraQuotes
    (quote : Char)
    (read : List Char × List Char) :
    List Char × List Char :=
  let extra := (read.2.take 2).takeWhile (· == quote)
  (read.1 ++ extra, read.2.drop extra.length)

/- Read a quoted text of any of the four forms. -/
def readQuoted (s : List Char) : Read String :=
  let finish := fun (r : Read (List Char)) =>
    r.map fun (text, rest) => (String.ofList text, rest)
  match s with
  | '"' :: '"' :: '"' :: rest =>
      finish
        ((readBasic true (skipLineFeed rest)).map
          (withExtraQuotes '"'))
  | '"' :: rest => finish (readBasic false rest)
  | '\'' :: '\'' :: '\'' :: rest =>
      finish
        ((readWideLiteralOnto [] (skipLineFeed rest)).map
          (withExtraQuotes '\''))
  | '\'' :: rest => finish (readLiteral rest)
  | _ => fail

------------------------------------------------------------
-- Keys
------------------------------------------------------------

/- The characters of a bare key. -/
def isKeyChar (c : Char) : Bool :=
  c.isAlphanum || c == '-' || c == '_'

/- Read one part of a key. -/
def readKeyPart (s : List Char) : Read String :=
  match s with
  | '"' :: rest =>
      (readBasic false rest).map
        fun (text, rest) => (String.ofList text, rest)
  | '\'' :: rest =>
      (readLiteral rest).map
        fun (text, rest) => (String.ofList text, rest)
  | s =>
      let part := s.takeWhile isKeyChar
      if part.isEmpty then fail
      else .ok (String.ofList part, s.dropWhile isKeyChar)

/- Read the parts of a key behind those read already. -/
def readKeyOnto :
    Nat → List String → List Char → Read (List String)
  | 0, _, _ => fail
  | fuel + 1, done, s =>
      match readKeyPart s with
      | .error e => .error e
      | .ok (part, rest) =>
          match skipGap rest with
          | '.' :: rest =>
              readKeyOnto fuel (part :: done) (skipGap rest)
          | rest => .ok ((part :: done).reverse, rest)

/- Read a key of one or more parts and the gap after it. -/
def readKey (s : List Char) : Read (List String) :=
  readKeyOnto (s.length + 1) [] s

end Toml

end CommentLint
