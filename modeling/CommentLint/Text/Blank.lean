/-
  Whitespace characters.

  Four information separators count as whitespace and yet do
  not separate a comment's text from its slashes.

  Key definitions include:
    * `isBlank`
    * `isSpacing`
    * `strip`
-/

namespace CommentLint

/- Whether a character is whitespace. -/
def isBlank (c : Char) : Bool :=
  let n := c.toNat
  (0x09 ≤ n && n ≤ 0x0D) || (0x1C ≤ n && n ≤ 0x20) ||
    n == 0x85 || n == 0xA0 || n == 0x1680 ||
    (0x2000 ≤ n && n ≤ 0x200A) || n == 0x2028 ||
    n == 0x2029 || n == 0x202F || n == 0x205F || n == 0x3000

/- Whether a character is one of U+001C to U+001F. -/
def isInformationSeparator (c : Char) : Bool :=
  0x1C ≤ c.toNat && c.toNat ≤ 0x1F

/- Whether a character is spacing in a comment. -/
def isSpacing (c : Char) : Bool :=
  isBlank c && !isInformationSeparator c

/- A text without the whitespace at its ends. -/
def strip (text : List Char) : List Char :=
  ((text.dropWhile isBlank).reverse.dropWhile isBlank).reverse

end CommentLint
