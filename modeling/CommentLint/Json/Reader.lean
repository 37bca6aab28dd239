import CommentLint.Json.Value
import CommentLint.Text.Hex

/-
  Reading JSON text.

  A number without a point and without an exponent is an
  integer of any size; any other is rounded to 64 bits.

  Key definitions include:
    * `Json.readText`
    * `Json.readNumber`
    * `Json.parse?`
-/

namespace CommentLint

namespace Json

------------------------------------------------------------
-- Text
------------------------------------------------------------

/- Whether a character may stand between tokens. -/
def isSpace (c : Char) : Bool :=
  c == ' ' || c == '\t' || c == '\n' || c == '\r'

/- The text from the first token on. -/
def skipSpace (s : List Char) : List Char :=
  s.dropWhile isSpace

/- The value of four hexadecimal digits. -/
def hexUnit? (a b c d : Char) : Option Nat :=
  match hexValue? a, hexValue? b, hexValue? c, hexValue? d with
  | some a, some b, some c, some d =>
      some (((a * 16 + b) * 16 + c) * 16 + d)
  | _, _, _, _ => none

/- The character that a letter stands for after a backslash. -/
def unescape? (c : Char) : Option Char :=
  match c with
  | '"' => some '"'
  | '\\' => some '\\'
  | '/' => some '/'
  | 'b' => some '\x08'
  | 'f' => some '\x0c'
  | 'n' => some '\n'
  | 'r' => some '\r'
  | 't' => some '\t'
  | _ => none

/- Whether a code unit is the first of a surrogate pair. -/
def isHighSurrogate (n : Nat) : Bool :=
  0xD800 ≤ n && n ≤ 0xDBFF

/- Whether a code unit is the second of a surrogate pair. -/
def isLowSurrogate (n : Nat) : Bool :=
  0xDC00 ≤ n && n ≤ 0xDFFF

/- The character of a surrogate pair. -/
def pairChar (high low : Nat) : Char :=
  Char.ofNat
    (0x10000 + (high - 0xD800) * 0x400 + (low - 0xDC00))

/-
  Read a text up to its closing quote, behind the characters
  read already, which are given reversed.
-/
def readTextOnto
    (done : List Char) :
    List Char → Option (String × List Char)
  | [] => none
  | '"' :: rest => some (String.ofList done.reverse, rest)
  | '\\' :: 'u' :: a :: b :: c :: d :: rest =>
      match hexUnit? a b c d with
      | none => none
      | some unit =>
          if isHighSurrogate unit then
            match rest with
            | '\\' :: 'u' :: e :: f :: g :: h :: rest =>
                match hexUnit? e f g h with
                | some low =>
                    if isLowSurrogate low then
                      readTextOnto (pairChar unit low :: done)
                        rest
                    else none
                | none => none
            | _ => none
          else if isLowSurrogate unit then none
          else readTextOnto (Char.ofNat unit :: done) rest
  | '\\' :: c :: rest =>
      match unescape? c with
      | some x => readTextOnto (x :: done) rest
      | none => none
  | c :: rest =>
      if c = '\\' ∨ c.toNat < 0x20 then none
      else readTextOnto (c :: done) rest

/- Read a text after its opening quote. -/
def readText (s : List Char) : Option (String × List Char) :=
  readTextOnto [] s

------------------------------------------------------------
-- Numbers
------------------------------------------------------------

/- The value of decimal digits that follow a value. -/
def decimalValue
    (start : Nat)
    (digits : List Char) : Nat :=
  digits.foldl (fun n c => n * 10 + (c.toNat - 0x30)) start

/- Split the decimal digits off a text. -/
def spanDigits (s : List Char) : List Char × List Char :=
  (s.takeWhile Char.isDigit, s.dropWhile Char.isDigit)

/- The digits after a point, or none when there is no point. -/
def fraction? (s : List Char) :
    Option (List Char × List Char) :=
  match s with
  | '.' :: rest =>
      let (digits, rest) := spanDigits rest
      if digits.isEmpty then none else some (digits, rest)
  | _ => some ([], s)

/- The exponent of a number, and whether one is written. -/
def exponent? (s : List Char) :
    Option (Bool × Int × List Char) :=
  let unsigned := fun (negative : Bool) (s : List Char) =>
    let (digits, rest) := spanDigits s
    if digits.isEmpty then none
    else
      let n : Int := decimalValue 0 digits
      some (true, if negative then -n else n, rest)
  match s with
  | c :: rest =>
      if c = 'e' ∨ c = 'E' then
        match rest with
        | '-' :: rest => unsigned true rest
        | '+' :: rest => unsigned false rest
        | rest => unsigned false rest
      else some (false, 0, s)
  | [] => some (false, 0, [])

/- Read a number. -/
def readNumber (s : List Char) :
    Option (Value × List Char) := do
  let (negative, body) :=
    match s with
    | '-' :: rest => (true, rest)
    | rest => (false, rest)
  let (whole, rest) := spanDigits body
  if whole.isEmpty ∨ (whole.head? = some '0' ∧ 1 < whole.length)
  then none
  else
    let (fraction, rest) ← fraction? rest
    let (scaled, exponent, rest) ← exponent? rest
    let n := decimalValue 0 whole
    if fraction.isEmpty ∧ scaled = false then
      some (.integer (if negative then -(n : Int) else n), rest)
    else
      some
        (.decimal
          (Binary64.ofDecimal negative (decimalValue n fraction)
            (exponent - fraction.length)),
          rest)

------------------------------------------------------------
-- Values
------------------------------------------------------------

/- Read a word that stands for a value. -/
def readWord (s : List Char) : Option (Value × List Char) :=
  if "null".toList.isPrefixOf s then some (.null, s.drop 4)
  else if "true".toList.isPrefixOf s then
    some (.bool true, s.drop 4)
  else if "false".toList.isPrefixOf s then
    some (.bool false, s.drop 5)
  else none

mutual

/- Read a value; the first argument bounds the steps. -/
def readValue :
    Nat → List Char → Option (Value × List Char)
  | 0, _ => none
  | fuel + 1, s =>
      match skipSpace s with
      | [] => none
      | '"' :: rest =>
          (readText rest).map fun (t, rest) => (.text t, rest)
      | '[' :: rest =>
          match skipSpace rest with
          | ']' :: rest => some (.array [], rest)
          | rest => readItems fuel [] rest
      | '\x7b' :: rest =>
          match skipSpace rest with
          | '\x7d' :: rest => some (.object [], rest)
          | rest => readFields fuel [] rest
      | c :: rest =>
          if c = '-' ∨ c.isDigit then readNumber (c :: rest)
          else readWord (c :: rest)

/- Read the items of an array behind those read already. -/
def readItems :
    Nat → List Value → List Char →
      Option (Value × List Char)
  | 0, _, _ => none
  | fuel + 1, done, s =>
      match readValue fuel s with
      | none => none
      | some (v, rest) =>
          match skipSpace rest with
          | ',' :: rest => readItems fuel (v :: done) rest
          | ']' :: rest =>
              some (.array (v :: done).reverse, rest)
          | _ => none

/- Read the fields of an object behind those read already. -/
def readFields :
    Nat → List (String × Value) → List Char →
      Option (Value × List Char)
  | 0, _, _ => none
  | fuel + 1, done, s =>
      match skipSpace s with
      | '"' :: rest =>
          match readText rest with
          | none => none
          | some (name, rest) =>
              match skipSpace rest with
              | ':' :: rest =>
                  match readValue fuel rest with
                  | none => none
                  | some (v, rest) =>
                      match skipSpace rest with
                      | ',' :: rest =>
                          readFields fuel ((name, v) :: done)
                            rest
                      | '\x7d' :: rest =>
                          some
                            (.object ((name, v) :: done).reverse,
                              rest)
                      | _ => none
              | _ => none
      | _ => none

end

/- The value that a text denotes. -/
def parse? (s : String) : Option Value :=
  let text := s.toList
  match readValue (2 * text.length + 2) text with
  | some (v, rest) =>
      if (skipSpace rest).isEmpty then some v else none
  | none => none

end Json

end CommentLint
