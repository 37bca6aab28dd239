import CommentLint.Number.Binary64

/-
  The shortest decimal text of a floating-point number.

  The digits are the fewest that read back as the number and,
  of those, the nearest to it, a tie going to the even digit.
  Decimal exponents from -4 to 15 are written positionally,
  with at least one digit after the point.

  Key definitions include:
    * `Shortest.digits`
    * `Binary64.text`
-/

namespace CommentLint

namespace Shortest

open Binary64

------------------------------------------------------------
-- The Interval That Rounds to a Number
------------------------------------------------------------

/-
  The numbers that round to `mantissa * 2 ^ exponent`, in
  quarters of its last place, as a fraction over `scale`.
-/
structure Interval where
  low : Nat
  value : Nat
  high : Nat
  scale : Nat
  closed : Bool
deriving DecidableEq, Repr

/- The interval of a positive number. -/
def interval
    (mantissa : Nat)
    (exponent : Int) : Interval :=
  let below :=
    if mantissa = powerOfTwo 52 ∧ leastExponent < exponent
    then 1 else 2
  let up :=
    if 2 ≤ exponent then powerOfTwo (exponent - 2).toNat else 1
  let scale :=
    if 2 ≤ exponent then 1 else powerOfTwo (2 - exponent).toNat
  { low := (4 * mantissa - below) * up
    value := 4 * mantissa * up
    high := (4 * mantissa + 2) * up
    scale := scale
    closed := mantissa % 2 == 0 }

/- Whether `num / den` lies in an interval. -/
def Interval.has
    (i : Interval)
    (num den : Nat) : Bool :=
  let x := num * i.scale
  if i.closed then
    decide (i.low * den ≤ x) && decide (x ≤ i.high * den)
  else decide (i.low * den < x) && decide (x < i.high * den)

------------------------------------------------------------
-- Decimal Grids
------------------------------------------------------------

/- `n * 10 ^ k` as a fraction. -/
def gridPoint
    (n : Nat)
    (k : Int) : Nat × Nat :=
  if 0 ≤ k then (n * powerOfTen k.toNat, 1)
  else (n, powerOfTen (-k).toNat)

/-
  The point of the grid of step `10 ^ k` that an interval
  holds and that is nearest to its value.
-/
def onGrid?
    (i : Interval)
    (k : Int) : Option Nat :=
  let (stepNum, stepDen) := gridPoint 1 k
  let num := i.value * stepDen
  let den := i.scale * stepNum
  let n := num / den
  let r := num % den
  let holds := fun n =>
    let (a, b) := gridPoint n k
    i.has a b
  let below := holds n && n != 0
  let above := holds (n + 1)
  if below && above then
    if 2 * r < den then some n
    else if den < 2 * r then some (n + 1)
    else some (n + n % 2)
  else if below then some n
  else if above then some (n + 1)
  else none

/-
  The first hit on grids that grow finer from step `10 ^ k`,
  with the exponent of its grid.
-/
def search
    (i : Interval) :
    Nat → Int → Option (Nat × Int)
  | 0, _ => none
  | fuel + 1, k =>
      match onGrid? i k with
      | some n => some (n, k)
      | none => search i fuel (k - 1)

/-
  The shortest digits of a positive number and the power of
  ten that they count.  A number below 2 ^ 1024 lies below
  10 ^ 309, and seventeen digits always read back.
-/
def digits
    (mantissa : Nat)
    (exponent : Int) : Nat × Int :=
  let i := interval mantissa exponent
  let top : Int :=
    (digitCount (i.value / i.scale) : Int)
  match search i 400 top with
  | some hit => hit
  | none => (mantissa, exponent)

------------------------------------------------------------
-- Notation
------------------------------------------------------------

/- An exponent with its sign and at least two digits. -/
def exponentText (e : Int) : String :=
  let digits := e.natAbs.repr
  (if e < 0 then "e-" else "e+") ++
    (if digits.length < 2 then "0" else "") ++ digits

/-
  Digits `d₁d₂…` that stand for `d₁.d₂… * 10 ^ e`, written
  positionally or with an exponent.
-/
def notate
    (ds : List Char)
    (e : Int) : String :=
  if -4 ≤ e ∧ e < 0 then
    "0." ++
      String.ofList (List.replicate (-e - 1).toNat '0' ++ ds)
  else if 0 ≤ e ∧ e < 16 then
    let whole := e.toNat + 1
    let padded := ds ++ List.replicate (whole - ds.length) '0'
    let fraction := padded.drop whole
    String.ofList (padded.take whole) ++ "." ++
      (if fraction.isEmpty then "0" else String.ofList fraction)
  else
    String.ofList (ds.take 1) ++
      (if ds.length ≤ 1 then ""
        else "." ++ String.ofList (ds.drop 1)) ++
      exponentText e

end Shortest

namespace Binary64

/- The shortest text that reads back as the number. -/
def text : Binary64 → String
  | .nan => "nan"
  | .infinite negative => if negative then "-inf" else "inf"
  | .finite negative m e =>
      let magnitude :=
        if m = 0 then "0.0"
        else
          let (n, k) := Shortest.digits m e
          let ds := Nat.toDigits 10 n
          Shortest.notate ds (k + (ds.length : Int) - 1)
      if negative then "-" ++ magnitude else magnitude

end Binary64

end CommentLint
