import CommentLint.Setting.Basic
import CommentLint.Toml.Text

/-
  Dates and times of TOML documents.

  Key definitions include:
    * `Toml.readTime?`
    * `Toml.readMoment?`
-/

namespace CommentLint

namespace Toml

------------------------------------------------------------
-- Fields of Two Digits
------------------------------------------------------------

/- The value of a digit. -/
def digit (c : Char) : Nat :=
  c.toNat - 0x30

/- A number of two digits from `low` to `high`. -/
def twoDigits?
    (low high : Nat)
    (a b : Char) : Option Nat :=
  if a.isDigit ∧ b.isDigit then
    let n := digit a * 10 + digit b
    if low ≤ n ∧ n ≤ high then some n else none
  else none

/- The microseconds that digits after a point stand for. -/
def microseconds (digits : List Char) : Nat :=
  let six := digits.take 6
  six.foldl (fun n c => n * 10 + digit c) 0 *
    Nat.pow 10 (6 - six.length)

------------------------------------------------------------
-- Times
------------------------------------------------------------

/- Split a fraction of a second off a time, in microseconds. -/
def spanMicroseconds (s : List Char) : Nat × List Char :=
  match s with
  | '.' :: tail =>
      let digits := tail.takeWhile Char.isDigit
      if digits.isEmpty then (0, s)
      else (microseconds digits, tail.drop digits.length)
  | _ => (0, s)

/- Read a time of day, if one starts here. -/
def readTime? (s : List Char) :
    Option (TimeOfDay × List Char) :=
  match s with
  | a :: b :: ':' :: c :: d :: ':' :: e :: f :: rest => do
      let hour ← twoDigits? 0 23 a b
      let minute ← twoDigits? 0 59 c d
      let second ← twoDigits? 0 59 e f
      let (fraction, rest) := spanMicroseconds rest
      return (⟨hour, minute, second, fraction⟩, rest)
  | _ => none

/- Read the offset from universal time, if one follows. -/
def readOffset (s : List Char) : Option Int × List Char :=
  match s with
  | 'Z' :: rest => (some 0, rest)
  | 'z' :: rest => (some 0, rest)
  | sign :: a :: b :: ':' :: c :: d :: rest =>
      if sign = '+' ∨ sign = '-' then
        match twoDigits? 0 23 a b, twoDigits? 0 59 c d with
        | some hour, some minute =>
            let minutes : Int := hour * 60 + minute
            (some (if sign = '-' then -minutes else minutes),
              rest)
        | _, _ => (none, s)
      else (none, s)
  | _ => (none, s)

------------------------------------------------------------
-- Dates and Moments
------------------------------------------------------------

/- Read the fields of a date, if they start here. -/
def readDate? (s : List Char) : Option (Date × List Char) :=
  match s with
  | a :: b :: c :: d :: '-' :: e :: f :: '-' :: g :: h :: rest =>
      do
        let high ← twoDigits? 0 99 a b
        let low ← twoDigits? 0 99 c d
        let month ← twoDigits? 1 12 e f
        let day ← twoDigits? 1 31 g h
        return (⟨high * 100 + low, month, day⟩, rest)
  | _ => none

/- The time that follows a date, if one does. -/
def readTimeAfterDate? (s : List Char) :
    Option (TimeOfDay × List Char) :=
  match s with
  | c :: rest =>
      if c = 'T' ∨ c = 't' ∨ c = ' ' then readTime? rest
      else none
  | [] => none

/- Read a date, a time or both, if one starts here. -/
def readMoment? (s : List Char) : Option (Read Setting) :=
  match readDate? s with
  | some (date, rest) =>
      if date.isValid then
        match readTimeAfterDate? rest with
        | some (time, rest) =>
            let (offset?, rest) := readOffset rest
            some
              (.ok
                (.moment (.dayTime date time offset?), rest))
        | none => some (.ok (.moment (.day date), rest))
      else some fail
  | none =>
      (readTime? s).map
        fun (time, rest) => .ok (.moment (.time time), rest)

end Toml

end CommentLint
