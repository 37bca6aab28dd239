import CommentLint.Json.Value
import CommentLint.Number.Numeral
import CommentLint.Text.Hex

/-
  JSON text in ASCII.

  Characters outside printable ASCII are escaped, those past
  U+FFFF as a surrogate pair.  The indented form puts every
  item of a container on a line of its own; empty containers
  stay on one line.  An integer that has too many digits ends
  the work.

  Key definitions include:
    * `Json.escape`
    * `Json.render`
    * `Json.Value.indented`
-/

namespace CommentLint

namespace Json

------------------------------------------------------------
-- Scalars
------------------------------------------------------------

/- A code unit of sixteen bits as an escape. -/
def unitEscape (n : Nat) : List Char :=
  '\\' :: 'u' :: hexNumeral 4 n

/- A character inside quotes. -/
def escape (c : Char) : List Char :=
  if c = '"' then ['\\', '"']
  else if c = '\\' then ['\\', '\\']
  else if c = '\n' then ['\\', 'n']
  else if c = '\r' then ['\\', 'r']
  else if c = '\t' then ['\\', 't']
  else if c = '\x08' then ['\\', 'b']
  else if c = '\x0c' then ['\\', 'f']
  else
    let n := c.toNat
    if 0x20 ≤ n ∧ n ≤ 0x7E then [c]
    else if n ≤ 0xFFFF then unitEscape n
    else
      unitEscape (0xD800 + (n - 0x10000) / 0x400) ++
        unitEscape (0xDC00 + (n - 0x10000) % 0x400)

/- A text between quotes. -/
def textForm (s : String) : List Char :=
  '"' :: s.toList.flatMap escape ++ ['"']

/- A number that is no integer. -/
def decimalForm (x : Binary64) : List Char :=
  match x with
  | .nan => "NaN".toList
  | .infinite negative =>
      (if negative then "-Infinity" else "Infinity").toList
  | x => x.text.toList

------------------------------------------------------------
-- Layouts
------------------------------------------------------------

/-
  What stands between the tokens of a container: after its
  opener, between items and before its closer, by depth; and
  after the name of a field.
-/
structure Layout where
  opening : Nat → List Char
  between : Nat → List Char
  closing : Nat → List Char
  afterName : List Char

/- The start of a line at a depth. -/
def newLine (depth : Nat) : List Char :=
  '\n' :: List.replicate (2 * depth) ' '

/- One item on a line, two spaces deeper than its container. -/
def Layout.indented : Layout :=
  { opening := fun depth => newLine (depth + 1)
    between := fun depth => ',' :: newLine (depth + 1)
    closing := newLine
    afterName := [':', ' '] }

------------------------------------------------------------
-- Values
------------------------------------------------------------

/- A field of an object, from the text of its value. -/
def fieldForm
    (layout : Layout)
    (name : String)
    (value : List Char) : List Char :=
  textForm name ++ layout.afterName ++ value

mutual

/- A value at a depth, if all its integers can be written. -/
def render
    (layout : Layout)
    (depth : Nat) :
    Value → Except Numeral.Error (List Char)
  | .null => .ok "null".toList
  | .bool b => .ok (if b then "true" else "false").toList
  | .integer n => (Numeral.write n).map String.toList
  | .decimal x => .ok (decimalForm x)
  | .text s => .ok (textForm s)
  | .array [] => .ok ['[', ']']
  | .array (v :: rest) => do
      let first ← render layout (depth + 1) v
      let others ← renderItems layout depth rest
      return '[' :: layout.opening depth ++ first ++ others
  | .object [] => .ok ['\x7b', '\x7d']
  | .object ((name, v) :: rest) => do
      let first ← render layout (depth + 1) v
      let others ← renderFields layout depth rest
      return '\x7b' :: layout.opening depth ++
        fieldForm layout name first ++ others

/- The items of an array after its first. -/
def renderItems
    (layout : Layout)
    (depth : Nat) :
    List Value → Except Numeral.Error (List Char)
  | [] => .ok (layout.closing depth ++ [']'])
  | v :: rest => do
      let next ← render layout (depth + 1) v
      let others ← renderItems layout depth rest
      return layout.between depth ++ next ++ others

/- The fields of an object after its first. -/
def renderFields
    (layout : Layout)
    (depth : Nat) :
    List (String × Value) → Except Numeral.Error (List Char)
  | [] => .ok (layout.closing depth ++ ['\x7d'])
  | (name, v) :: rest => do
      let next ← render layout (depth + 1) v
      let others ← renderFields layout depth rest
      return layout.between depth ++
        fieldForm layout name next ++ others

end

/- The text of a value over several lines. -/
def Value.indented (v : Value) : Except Numeral.Error String :=
  (render .indented 0 v).map String.ofList

end Json

end CommentLint
