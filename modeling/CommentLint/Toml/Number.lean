import CommentLint.Number.Numeral
import CommentLint.Setting.Basic
import CommentLint.Toml.Text

/-
  Numbers of TOML documents.

  Underscores may stand between digits.  Whole numbers have a
  sign and no leading zeros, or a base; numbers with a point
  or an exponent are rounded to 64 bits.

  Key definitions include:
    * `Toml.spanGrouped`
    * `Toml.readNumber?`
    * `Toml.readSpecial?`
-/

namespace CommentLint

namespace Toml

------------------------------------------------------------
-- Digits
------------------------------------------------------------

/-
  Split off digits with single underscores between them, once
  a digit has come before; the digits come reversed.
-/
def spanGroupedOnto
    (isDigit : Char → Bool)
    (done : List Char) :
    List Char → List Char × List Char
  | [] => (done, [])
  | '_' :: c :: rest =>
      if isDigit c then
        spanGroupedOnto isDigit (c :: done) rest
      else (done, '_' :: c :: rest)
  | c :: rest =>
      if isDigit c then
        spanGroupedOnto isDigit (c :: done) rest
      else (done, c :: rest)

/- Split off digits that start with a digit; none if none does. -/
def spanGrouped
    (isDigit : Char → Bool)
    (s : List Char) : List Char × List Char :=
  match s with
  | c :: rest =>
      if isDigit c then
        let (digits, rest) := spanGroupedOnto isDigit [c] rest
        (digits.reverse, rest)
      else ([], s)
  | [] => ([], [])

/- Whether a character is a digit of a base. -/
def isDigitOf
    (base : Nat)
    (c : Char) : Bool :=
  match hexValue? c with
  | some d => d < base
  | none => false

/- The value of digits in a base. -/
def valueIn
    (base : Nat)
    (digits : List Char) : Nat :=
  digits.foldl (fun n c => n * base + (hexValue? c).getD 0) 0

------------------------------------------------------------
-- Numbers
------------------------------------------------------------

/- The base that a letter after a zero stands for. -/
def baseOf? (c : Char) : Option Nat :=
  match c with
  | 'x' => some 16
  | 'o' => some 8
  | 'b' => some 2
  | _ => none

/- Read a whole number with a base, if one starts here. -/
def readBased? (s : List Char) : Option (Nat × List Char) :=
  match s with
  | '0' :: letter :: rest =>
      match baseOf? letter with
      | none => none
      | some base =>
          let (digits, rest) := spanGrouped (isDigitOf base) rest
          if digits.isEmpty then none
          else some (valueIn base digits, rest)
  | _ => none

/- Split off the digits of a whole number without a base. -/
def spanWhole (s : List Char) : List Char × List Char :=
  match s with
  | '0' :: rest => (['0'], rest)
  | s => spanGrouped Char.isDigit s

/- Split off the digits after a point; none if there are none. -/
def spanFraction (s : List Char) : List Char × List Char :=
  match s with
  | '.' :: rest =>
      let (digits, after) := spanGrouped Char.isDigit rest
      if digits.isEmpty then ([], s) else (digits, after)
  | _ => ([], s)

/- Split off an exponent, if one follows. -/
def spanExponent (s : List Char) : Option Int × List Char :=
  match s with
  | c :: rest =>
      if c = 'e' ∨ c = 'E' then
        let (negative, body) := Numeral.sign rest
        let (digits, after) := spanGrouped Char.isDigit body
        if digits.isEmpty then (none, s)
        else
          let n : Int := valueIn 10 digits
          (some (if negative then -n else n), after)
      else (none, s)
  | [] => (none, [])

/- Read a number, if one starts here. -/
def readNumber? (s : List Char) : Option (Read Setting) :=
  match readBased? s with
  | some (n, rest) => some (.ok (.integer n, rest))
  | none =>
      let (negative, body) := Numeral.sign s
      let (whole, rest) := spanWhole body
      if whole.isEmpty then none
      else
        let (fraction, rest) := spanFraction rest
        let (exponent?, rest) := spanExponent rest
        if fraction.isEmpty ∧ exponent?.isNone then
          if Numeral.digitLimit < whole.length then
            some (.error (.tooManyDigits whole.length))
          else
            let n : Int := valueIn 10 whole
            some
              (.ok (.integer (if negative then -n else n), rest))
        else
          let x :=
            Binary64.ofDecimal negative
              (valueIn 10 (whole ++ fraction))
              (exponent?.getD 0 - fraction.length)
          some (.ok (.decimal x, rest))

/- Read an infinity or a NaN, if one starts here. -/
def readSpecial? (s : List Char) :
    Option (Setting × List Char) :=
  let (negative, body) := Numeral.sign s
  if "inf".toList.isPrefixOf body then
    some (.decimal (.infinite negative), body.drop 3)
  else if "nan".toList.isPrefixOf body then
    some (.decimal .nan, body.drop 3)
  else none

end Toml

end CommentLint
