import CommentLint.Text.Hex
import CommentLint.Text.Printable

/-
  Quoted text, as messages show a value that was given.

  The quote is an apostrophe, unless the text holds an
  apostrophe and no double quote.  The quote in use and the
  backslash are escaped by a backslash; tab, line feed and
  carriage return have letters; every other character that
  is not printable is written by its code point.

  Key definitions include:
    * `Quoted.escape`
    * `quoted`
-/

namespace CommentLint

namespace Quoted

/- The quote that surrounds a text. -/
def quoteFor (text : List Char) : Char :=
  if text.contains '\'' && !text.contains '"' then '"'
  else '\''

/- A character by its code point, in the shortest of three forms. -/
def codePoint (c : Char) : List Char :=
  let n := c.toNat
  if n ≤ 0xFF then '\\' :: 'x' :: hexNumeral 2 n
  else if n ≤ 0xFFFF then '\\' :: 'u' :: hexNumeral 4 n
  else '\\' :: 'U' :: hexNumeral 8 n

/- A character inside the given quotes. -/
def escape
    (quote : Char)
    (c : Char) : List Char :=
  if c = quote ∨ c = '\\' then ['\\', c]
  else if c = '\t' then ['\\', 't']
  else if c = '\n' then ['\\', 'n']
  else if c = '\r' then ['\\', 'r']
  else if isPrintable c then [c]
  else codePoint c

end Quoted

/- A string between quotes. -/
def quoted (s : String) : String :=
  let text := s.toList
  let quote := Quoted.quoteFor text
  String.ofList
    (quote :: text.flatMap (Quoted.escape quote) ++ [quote])

end CommentLint
