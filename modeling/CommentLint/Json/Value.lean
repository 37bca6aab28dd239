import CommentLint.Number.Shortest

/-
  JSON values.

  Objects keep the order of their fields, and integers are
  kept apart from numbers with a point or an exponent.

  Key definitions include:
    * `Json.Value`
    * `Json.Value.field?`
-/

namespace CommentLint

namespace Json

/- A JSON value. -/
inductive Value where
| null
| bool (b : Bool)
| integer (n : Int)
| decimal (x : Binary64)
| text (s : String)
| array (items : List Value)
| object (fields : List (String × Value))
deriving Repr, Inhabited

namespace Value

/- The value of a field of an object. -/
def field?
    (v : Value)
    (name : String) : Option Value :=
  match v with
  | .object fields => fields.lookup name
  | _ => none

/- A list of strings as a value. -/
def texts (items : List String) : Value :=
  .array (items.map .text)

end Value

end Json

end CommentLint
