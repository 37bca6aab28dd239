import CommentLint.Text.Hex

/-
  Dates and times of day in configuration files.

  Key definitions include:
    * `Date`
    * `TimeOfDay`
    * `Moment`
    * `Moment.text`
    * `Moment.literal`
    * `Moment.same`
-/

namespace CommentLint

------------------------------------------------------------
-- Dates
------------------------------------------------------------

/- A day of the Gregorian calendar. -/
structure Date where
  year : Nat
  month : Nat
  day : Nat
deriving DecidableEq, Repr

namespace Date

/- Whether a year has a 29th of February. -/
def isLeapYear (year : Nat) : Bool :=
  year % 4 == 0 && (year % 100 != 0 || year % 400 == 0)

/- The number of days in a month. -/
def daysInMonth (year month : Nat) : Nat :=
  if month = 2 then if isLeapYear year then 29 else 28
  else if month = 4 ∨ month = 6 ∨ month = 9 ∨ month = 11 then 30
  else 31

/- Whether a date is in the calendar. -/
def isValid (d : Date) : Bool :=
  1 ≤ d.year && d.year ≤ 9999 && 1 ≤ d.month && d.month ≤ 12 &&
    1 ≤ d.day && d.day ≤ daysInMonth d.year d.month

/- The number of days from the first of January of year one. -/
def ordinal (d : Date) : Nat :=
  let y := d.year - 1
  y * 365 + y / 4 - y / 100 + y / 400 +
    (List.range (d.month - 1)).foldr
      (fun m n => daysInMonth d.year (m + 1) + n) 0 +
    (d.day - 1)

end Date

------------------------------------------------------------
-- Times
------------------------------------------------------------

/- A time of day. -/
structure TimeOfDay where
  hour : Nat
  minute : Nat
  second : Nat
  microsecond : Nat
deriving DecidableEq, Repr

/- A number in decimal, padded by zeros. -/
def padded
    (width n : Nat) : String :=
  let digits := n.repr
  String.ofList (List.replicate (width - digits.length) '0') ++
    digits

namespace TimeOfDay

/- The microseconds since midnight. -/
def ticks (t : TimeOfDay) : Nat :=
  ((t.hour * 60 + t.minute) * 60 + t.second) * 1000000 +
    t.microsecond

/- The text of a time. -/
def text (t : TimeOfDay) : String :=
  padded 2 t.hour ++ ":" ++ padded 2 t.minute ++ ":" ++
    padded 2 t.second ++
    (if t.microsecond = 0 then ""
      else "." ++ padded 6 t.microsecond)

/- The fields of a time as a constructor's arguments. -/
def fields (t : TimeOfDay) : List Nat :=
  [t.hour, t.minute] ++
    (if t.second = 0 ∧ t.microsecond = 0 then [] else [t.second]) ++
    (if t.microsecond = 0 then [] else [t.microsecond])

end TimeOfDay

------------------------------------------------------------
-- Moments
------------------------------------------------------------

/-
  A date, a time of day, or both; the offset from universal
  time is in minutes.
-/
inductive Moment where
| day (date : Date)
| time (time : TimeOfDay)
| dayTime
    (date : Date)
    (time : TimeOfDay)
    (offset? : Option Int)
deriving DecidableEq, Repr

namespace Moment

/- The text of a date. -/
def dateText (d : Date) : String :=
  padded 4 d.year ++ "-" ++ padded 2 d.month ++ "-" ++
    padded 2 d.day

/- The text of an offset. -/
def offsetText (minutes : Int) : String :=
  (if minutes < 0 then "-" else "+") ++
    padded 2 (minutes.natAbs / 60) ++ ":" ++
    padded 2 (minutes.natAbs % 60)

/- The text of a moment on its own. -/
def text : Moment → String
  | .day d => dateText d
  | .time t => t.text
  | .dayTime d t offset? =>
      dateText d ++ " " ++ t.text ++
        (offset?.map offsetText).getD ""

/- A constructor applied to arguments. -/
def call
    (name : String)
    (arguments : List String) : String :=
  name ++ "(" ++ String.intercalate ", " arguments ++ ")"

/- The fields of a date. -/
def dateFields (d : Date) : List String :=
  [d.year, d.month, d.day].map Nat.repr

/- An offset as a constructor's argument. -/
def offsetLiteral (minutes : Int) : String :=
  if minutes = 0 then "datetime.timezone.utc"
  else
    let seconds :=
      if minutes < 0 then
        ["days=-1", "seconds=" ++ (86400 + minutes * 60).repr]
      else ["seconds=" ++ (minutes * 60).repr]
    call "datetime.timezone" [call "datetime.timedelta" seconds]

/- The text of a moment inside a list or a table. -/
def literal : Moment → String
  | .day d => call "datetime.date" (dateFields d)
  | .time t => call "datetime.time" (t.fields.map Nat.repr)
  | .dayTime d t offset? =>
      call "datetime.datetime"
        (dateFields d ++ t.fields.map Nat.repr ++
          (offset?.map
            fun m => "tzinfo=" ++ offsetLiteral m).toList)

/- The microseconds from a fixed moment of universal time. -/
def instant
    (d : Date)
    (t : TimeOfDay)
    (offset : Int) : Int :=
  (d.ordinal : Int) * 86400000000 + t.ticks -
    offset * 60000000

/-
  Whether two moments are the same.  Moments with offsets are
  compared in universal time.
-/
def same (x y : Moment) : Bool :=
  match x, y with
  | .dayTime d t (some m), .dayTime d' t' (some m') =>
      instant d t m == instant d' t' m'
  | x, y => x == y

end Moment

end CommentLint
