import CommentLint.Json.Value
import CommentLint.Number.Numeral
import CommentLint.Setting.Moment
import CommentLint.Text.Casing
import CommentLint.Text.Quoted

/-
  Settings: the values of a configuration.

  A configuration may hold a value of any kind in any place,
  so every use of a setting says which kinds it takes and how
  it fails on the others.

  Key definitions include:
    * `Setting`
    * `SettingError`
    * `Setting.field?`
    * `Setting.elements`
    * `Setting.toInt`
    * `Setting.text`
    * `Setting.sameKey`
    * `distinctKeys`
-/

namespace CommentLint

------------------------------------------------------------
-- Settings
------------------------------------------------------------

/- A value of a configuration; tables keep their order. -/
inductive Setting where
| null
| bool (b : Bool)
| integer (n : Int)
| decimal (x : Binary64)
| text (s : String)
| moment (m : Moment)
| list (items : List Setting)
| table (fields : List (String × Setting))
deriving Repr, Inhabited

/- Why a setting cannot be used as it is. -/
inductive SettingError where
| notTable
| notText
| notList
| notNumber
| notOrdered
| notKey
| notPath
| undefinedNumber
| infiniteNumber
| badNumeral (text : String)
| numeral (cause : Numeral.Error)
deriving DecidableEq, Repr

namespace SettingError

/- How many characters of a literal a message gives. -/
def shownLength : Nat :=
  200

/- The start of the literal of a text. -/
def shown (text : String) : String :=
  String.ofList ((quoted text).toList.take shownLength)

/- The message of an error, where it has one. -/
def message : SettingError → String
  | .undefinedNumber => "cannot convert float NaN to integer"
  | .infiniteNumber =>
      "cannot convert float infinity to integer"
  | .badNumeral text =>
      "invalid literal for int() with base 10: " ++ shown text
  | .numeral (.tooManyDigits count) =>
      "Exceeds the limit (" ++ Numeral.digitLimit.repr ++
        " digits) for integer string conversion: value has " ++
        count.repr ++
        " digits; use sys.set_int_max_str_digits() to increase the limit"
  | .numeral .tooLargeToWrite =>
      "Exceeds the limit (" ++ Numeral.digitLimit.repr ++
        " digits) for integer string conversion; use sys.set_int_max_str_digits() to increase the limit"
  | .numeral .malformed => "invalid literal"
  | .notTable => "a table was expected"
  | .notText => "a text was expected"
  | .notList => "a list was expected"
  | .notNumber => "a number was expected"
  | .notOrdered => "a number to compare was expected"
  | .notKey => "a list or a table cannot be looked up"
  | .notPath => "a path was expected"

end SettingError

namespace Setting

/- The setting that a JSON value gives. -/
def ofJson : Json.Value → Setting
  | .null => .null
  | .bool b => .bool b
  | .integer n => .integer n
  | .decimal x => .decimal x
  | .text s => .text s
  | .array items => .list (ofItems items)
  | .object fields => .table (ofFields fields)
where
  ofItems : List Json.Value → List Setting
    | [] => []
    | v :: rest => ofJson v :: ofItems rest
  ofFields :
      List (String × Json.Value) → List (String × Setting)
    | [] => []
    | (name, v) :: rest => (name, ofJson v) :: ofFields rest

------------------------------------------------------------
-- Access
------------------------------------------------------------

/- Whether a setting is null. -/
def isNull : Setting → Bool
  | .null => true
  | _ => false

/- The field of a table, if it has one of that name. -/
def field?
    (s : Setting)
    (name : String) : Except SettingError (Option Setting) :=
  match s with
  | .table fields => .ok (fields.lookup name)
  | _ => .error .notTable

/- The field of a table, or null. -/
def fieldOrNull
    (s : Setting)
    (name : String) : Except SettingError Setting :=
  (s.field? name).map fun v => v.getD .null

/- The fields of a table. -/
def fields (s : Setting) :
    Except SettingError (List (String × Setting)) :=
  match s with
  | .table fields => .ok fields
  | _ => .error .notTable

/-
  The elements of a setting: the items of a list, the
  characters of a text, the names of a table.
-/
def elements (s : Setting) :
    Except SettingError (List Setting) :=
  match s with
  | .list items => .ok items
  | .text t =>
      .ok (t.toList.map fun c => .text (String.singleton c))
  | .table fields => .ok (fields.map fun f => .text f.1)
  | _ => .error .notList

/- Whether a setting counts as true. -/
def isTrue : Setting → Bool
  | .null => false
  | .bool b => b
  | .integer n => n != 0
  | .decimal x => !x.isZero
  | .text s => !s.isEmpty
  | .moment _ => true
  | .list items => !items.isEmpty
  | .table fields => !fields.isEmpty

/- The integer that a setting gives; fractions are cut off. -/
def toInt (s : Setting) : Except SettingError Int :=
  match s with
  | .bool b => .ok (if b then 1 else 0)
  | .integer n => .ok n
  | .decimal x =>
      match x with
      | .nan => .error .undefinedNumber
      | .infinite _ => .error .infiniteNumber
      | x => .ok (x.truncate?.getD 0)
  | .text t =>
      match Numeral.read t.toList with
      | .ok n => .ok n
      | .error .malformed => .error (.badNumeral t)
      | .error e => .error (.numeral e)
  | _ => .error .notNumber

/-
  How a number compares with an integer; a setting that is
  not a number does not compare.
-/
def compareInt?
    (s : Setting)
    (n : Int) : Except SettingError (Option Ordering) :=
  match s with
  | .bool b => .ok (some (compare (if b then 1 else 0) n))
  | .integer m => .ok (some (compare m n))
  | .decimal x => .ok (x.compareInt? n)
  | _ => .error .notOrdered

/- A number of kilobytes in bytes. -/
def kilobytes : Setting → Setting
  | .bool b => .integer (if b then 1024 else 0)
  | .integer n => .integer (n * 1024)
  | .decimal (.finite negative m e) =>
      .decimal (.finite negative m (e + 10))
  | s => s

------------------------------------------------------------
-- Text
------------------------------------------------------------

/- The text of an integer. -/
def integerText (n : Int) : Except SettingError String :=
  (Numeral.write n).mapError SettingError.numeral

mutual

/- The text of a setting inside a list or a table. -/
def literal : Setting → Except SettingError String
  | .null => .ok "None"
  | .bool b => .ok (if b then "True" else "False")
  | .integer n => integerText n
  | .decimal x => .ok x.text
  | .text s => .ok (quoted s)
  | .moment m => .ok m.literal
  | .list items => do
      let texts ← literals items
      return "[" ++ String.intercalate ", " texts ++ "]"
  | .table fields => do
      let texts ← fieldLiterals fields
      return "\x7b" ++ String.intercalate ", " texts ++ "\x7d"

/- The texts of the items of a list. -/
def literals : List Setting → Except SettingError (List String)
  | [] => .ok []
  | s :: rest => do
      let text ← literal s
      let texts ← literals rest
      return text :: texts

/- The texts of the fields of a table. -/
def fieldLiterals :
    List (String × Setting) → Except SettingError (List String)
  | [] => .ok []
  | (name, s) :: rest => do
      let text ← literal s
      let texts ← fieldLiterals rest
      return (quoted name ++ ": " ++ text) :: texts

end

/- The text of a setting on its own. -/
def toText : Setting → Except SettingError String
  | .text s => .ok s
  | .moment m => .ok m.text
  | s => literal s

/- The text of a setting in small letters. -/
def lowerText (s : Setting) : Except SettingError String :=
  s.toText.map lowerString

------------------------------------------------------------
-- Keys
------------------------------------------------------------

/- Whether a setting can be looked up. -/
def isKey : Setting → Bool
  | .list _ => false
  | .table _ => false
  | _ => true

/- The integer that a truth value counts as. -/
def asNumber : Setting → Setting
  | .bool b => .integer (if b then 1 else 0)
  | s => s

/- Whether two keys are the same; numbers are the same by value. -/
def sameKey (x y : Setting) : Bool :=
  match x.asNumber, y.asNumber with
  | .null, .null => true
  | .integer m, .integer n => m == n
  | .integer m, .decimal x => x.compareInt? m == some .eq
  | .decimal x, .integer m => x.compareInt? m == some .eq
  | .decimal x, .decimal y => x.equals y
  | .text s, .text t => s == t
  | .moment m, .moment n => m.same n
  | _, _ => false

/- Whether a setting is a given text. -/
def isText
    (s : Setting)
    (t : String) : Bool :=
  match s with
  | .text u => u == t
  | _ => false

/- Whether a text is among settings that can be looked up. -/
def hasText
    (settings : List Setting)
    (t : String) : Bool :=
  settings.any fun s => s.isText t

end Setting

------------------------------------------------------------
-- Distinct Keys
------------------------------------------------------------

/- Keep the first of equal elements, behind those kept already. -/
def keepFirst
    {α : Type}
    (same : α → α → Bool)
    (kept : List α) :
    List α → List α
  | [] => kept.reverse
  | x :: rest =>
      if kept.any fun y => same y x then keepFirst same kept rest
      else keepFirst same (x :: kept) rest

/- The strings of a list, each at its first place. -/
def distinct (items : List String) : List String :=
  keepFirst (· == ·) [] items

/- The settings of a list, each at its first place. -/
def distinctKeys (items : List Setting) :
    Except SettingError (List Setting) :=
  if items.all Setting.isKey then
    .ok (keepFirst Setting.sameKey [] items)
  else .error .notKey

end CommentLint
