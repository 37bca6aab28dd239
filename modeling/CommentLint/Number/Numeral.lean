import CommentLint.Text.Blank
import CommentLint.Text.Digit

/-
  Decimal integer numerals, as users write them.

  A numeral is an optional sign and one or more digits of any
  script, single underscores being allowed between digits,
  with whitespace around the whole.  Numerals of more than
  4300 digits are refused.

  Key definitions include:
    * `Numeral.Error`
    * `Numeral.read`
    * `Numeral.write`
-/

namespace CommentLint

namespace Numeral

------------------------------------------------------------
-- Errors
------------------------------------------------------------

/- Why a text is no integer, or an integer has no text. -/
inductive Error where
| malformed
| tooManyDigits (count : Nat)
| tooLargeToWrite
deriving DecidableEq, Repr

/- The greatest number of digits that are read or written. -/
def digitLimit : Nat :=
  4300

------------------------------------------------------------
-- Reading
------------------------------------------------------------

/-
  Whitespace around a numeral; the information separators do
  not count.
-/
def isMargin (c : Char) : Bool :=
  isBlank c && !isInformationSeparator c

/-
  Read digits with single underscores between them.  Gives
  the number of digits, their value and the rest, or nothing
  when an underscore does not stand between two digits.
-/
def digits
    (count : Nat)
    (value : Nat) :
    List Char → Option (Nat × Nat × List Char)
  | [] => some (count, value, [])
  | '_' :: c :: rest =>
      match digitValue? c with
      | some d =>
          if count = 0 then none
          else digits (count + 1) (value * 10 + d) rest
      | none => none
  | c :: rest =>
      if c = '_' then none
      else
        match digitValue? c with
        | some d => digits (count + 1) (value * 10 + d) rest
        | none => some (count, value, c :: rest)

/- Split a sign off a numeral. -/
def sign : List Char → Bool × List Char
  | '+' :: rest => (false, rest)
  | '-' :: rest => (true, rest)
  | rest => (false, rest)

/- The integer that a text denotes. -/
def read (text : List Char) : Except Error Int :=
  let (negative, body) := sign (text.dropWhile isMargin)
  match digits 0 0 body with
  | none => .error .malformed
  | some (count, value, rest) =>
      if count = 0 then .error .malformed
      else if digitLimit < count then
        .error (.tooManyDigits count)
      else if rest.all isMargin then
        .ok (if negative then -(value : Int) else value)
      else .error .malformed

------------------------------------------------------------
-- Writing
------------------------------------------------------------

/- The numeral of an integer, unless it has too many digits. -/
def write (n : Int) : Except Error String :=
  if n.natAbs < Nat.pow 10 digitLimit then .ok n.repr
  else .error .tooLargeToWrite

end Numeral

end CommentLint
