/-
  Floating-point numbers of 64 bits, in exact arithmetic.

  A finite number is a mantissa below 2 ^ 53 times a power of
  two, and every such number has one form: the mantissa has
  53 bits unless the exponent is the least one.

  Key definitions include:
    * `Binary64`
    * `Binary64.ofRatio`
    * `Binary64.ofDecimal`
    * `Binary64.truncate?`
    * `Binary64.compareInt?`
-/

namespace CommentLint

/- A floating-point number; a NaN has no payload. -/
inductive Binary64 where
| nan
| infinite (negative : Bool)
| finite (negative : Bool) (mantissa : Nat) (exponent : Int)
deriving DecidableEq, Repr

namespace Binary64

------------------------------------------------------------
-- Limits
------------------------------------------------------------

/- The exponent of the smallest numbers. -/
def leastExponent : Int :=
  -1074

/- The exponent of the largest numbers. -/
def greatestExponent : Int :=
  971

/- A power of two. -/
def powerOfTwo (n : Nat) : Nat :=
  Nat.pow 2 n

/- A power of ten. -/
def powerOfTen (n : Nat) : Nat :=
  Nat.pow 10 n

/- Zero of either sign. -/
def zero (negative : Bool) : Binary64 :=
  .finite negative 0 leastExponent

------------------------------------------------------------
-- Rounding
------------------------------------------------------------

/- A quotient rounded to the nearest integer, a half to the even one. -/
def roundDiv (num den : Nat) : Nat :=
  let q := num / den
  let r := num % den
  if 2 * r < den then q
  else if den < 2 * r then q + 1
  else q + q % 2

/- `num / den` scaled by a power of two and rounded. -/
def scaled
    (num den : Nat)
    (exponent : Int) : Nat :=
  if 0 ≤ exponent then
    roundDiv num (den * powerOfTwo exponent.toNat)
  else roundDiv (num * powerOfTwo (-exponent).toNat) den

/- The number of bits of a number. -/
def bitLength (n : Nat) : Nat :=
  if n = 0 then 0 else n.log2 + 1

/- The exponent at which the quotient has 53 bits or one more. -/
def startExponent (num den : Nat) : Int :=
  max leastExponent
    ((bitLength num : Int) - (bitLength den : Int) - 53)

/- Whether the quotient has more than 53 bits above an exponent. -/
def exceeds53Bits
    (num den : Nat)
    (exponent : Int) : Bool :=
  if 0 ≤ exponent then
    powerOfTwo 53 * (den * powerOfTwo exponent.toNat) ≤ num
  else powerOfTwo 53 * den ≤ num * powerOfTwo (-exponent).toNat

/-
  The number nearest to `num / den`, for `den` not zero.  The
  first guess at the exponent leaves 53 or 54 bits, so at
  most one more halving is due before rounding, and a round
  up to 2 ^ 53 moves to the next exponent.
-/
def ofRatio
    (negative : Bool)
    (num den : Nat) : Binary64 :=
  if num = 0 then zero negative
  else
    let e₀ := startExponent num den
    let e := if exceeds53Bits num den e₀ then e₀ + 1 else e₀
    let m := scaled num den e
    let (m, e) :=
      if m = powerOfTwo 53 then (powerOfTwo 52, e + 1)
      else (m, e)
    if greatestExponent < e then .infinite negative
    else .finite negative m e

/- The number of decimal digits of a number. -/
def digitCount (n : Nat) : Nat :=
  (Nat.toDigits 10 n).length

/-
  The number nearest to `digits * 10 ^ exponent`.  Exponents
  far outside the range are decided by the digit count alone.
-/
def ofDecimal
    (negative : Bool)
    (digits : Nat)
    (exponent : Int) : Binary64 :=
  if digits = 0 then zero negative
  else
    let magnitude := exponent + digitCount digits
    if 310 < magnitude then .infinite negative
    else if magnitude < -330 then zero negative
    else if 0 ≤ exponent then
      ofRatio negative (digits * powerOfTen exponent.toNat) 1
    else
      ofRatio negative digits (powerOfTen (-exponent).toNat)

------------------------------------------------------------
-- Integers
------------------------------------------------------------

/- The magnitude of a finite number without its fraction. -/
def wholePart
    (mantissa : Nat)
    (exponent : Int) : Nat :=
  if 0 ≤ exponent then mantissa * powerOfTwo exponent.toNat
  else mantissa / powerOfTwo (-exponent).toNat

/- A finite number without its fraction. -/
def truncate? : Binary64 → Option Int
  | .finite negative m e =>
      let n : Int := wholePart m e
      some (if negative then -n else n)
  | _ => none

/- Compare a floating-point number with an integer exactly. -/
def compareInt? : Binary64 → Int → Option Ordering
  | .nan, _ => none
  | .infinite negative, _ =>
      some (if negative then .lt else .gt)
  | .finite negative m e, n =>
      let signed : Int := if negative then -(m : Int) else m
      some <|
        if 0 ≤ e then
          compare (signed * (powerOfTwo e.toNat : Int)) n
        else compare signed (n * (powerOfTwo (-e).toNat : Int))

/- Whether a number is a zero of either sign. -/
def isZero : Binary64 → Bool
  | .finite _ m _ => m == 0
  | _ => false

/- Equality of numbers: zeros are equal and a NaN equals nothing. -/
def equals (x y : Binary64) : Bool :=
  match x, y with
  | .nan, _ => false
  | _, .nan => false
  | x, y => x == y || (x.isZero && y.isZero)

end Binary64

end CommentLint
