/-
  Hexadecimal numerals of a fixed width.

  Key definitions include:
    * `hexDigit`
    * `hexNumeral`
    * `hexValue?`
-/

namespace CommentLint

/- The digit for a value below sixteen, with small letters. -/
def hexDigit (n : Nat) : Char :=
  if n < 10 then Char.ofNat (0x30 + n)
  else Char.ofNat (0x57 + n)

/- The last `width` hexadecimal digits of a number. -/
def hexNumeral
    (width : Nat)
    (n : Nat) : List Char :=
  (List.range width).reverse.map
    fun i => hexDigit (n / Nat.pow 16 i % 16)

/- The value of a hexadecimal digit of either case. -/
def hexValue? (c : Char) : Option Nat :=
  let n := c.toNat
  if 0x30 ≤ n ∧ n ≤ 0x39 then some (n - 0x30)
  else if 0x41 ≤ n ∧ n ≤ 0x46 then some (n - 0x37)
  else if 0x61 ≤ n ∧ n ≤ 0x66 then some (n - 0x57)
  else none

end CommentLint
