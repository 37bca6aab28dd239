import CommentLint.Rule.Basic
import CommentLint.Text.Quoted

/-
  Rules checked against their own examples.

  A triggering example has a marker before every character
  that breaks the rule.

  Key definitions include:
    * `MarkedText`
    * `MarkedText.parse`
    * `Rule.exampleFailures`
-/

namespace CommentLint

------------------------------------------------------------
-- Marked Text
------------------------------------------------------------

/- A text and the byte offsets that are marked in it. -/
structure MarkedText where
  text : List Char
  offsets : List Nat
deriving DecidableEq, Repr

namespace MarkedText

/- The marker. -/
def marker : Char :=
  '↓'

/-
  The offsets of markers, one after each piece of text but
  the last, when `offset` bytes stand before the pieces.
-/
def offsetsFrom
    (offset : Nat) :
    List (List Char) → List Nat
  | [] => []
  | [_] => []
  | piece :: rest =>
      let next := offset + Utf8.size piece
      next :: offsetsFrom next rest

/- Take the markers out of an example. -/
def parse (text : List Char) : MarkedText :=
  let pieces := text.splitOn marker
  ⟨pieces.flatten, offsetsFrom 0 pieces⟩

end MarkedText

------------------------------------------------------------
-- Checking Examples
------------------------------------------------------------

/- How an example fails. -/
inductive ExampleFailure where
| falseAlarm (text : List Char) (found : List Int)
| unmarked (text : List Char)
| mismatch
    (text : List Char)
    (expected found : List Int)
deriving DecidableEq, Repr

namespace ExampleFailure

/- A list of offsets in brackets. -/
def offsetList (offsets : List Int) : String :=
  "[" ++ String.intercalate ", " (offsets.map Int.repr) ++ "]"

/- The message of a failure of the rule with an identifier. -/
def message
    (identifier : String) :
    ExampleFailure → String
  | .falseAlarm text found =>
      identifier ++ ": non-triggering example " ++
        quoted (String.ofList text) ++
        " produced violations at " ++ offsetList found
  | .unmarked text =>
      identifier ++ ": triggering example " ++
        quoted (String.ofList text) ++ " has no " ++
        String.singleton MarkedText.marker ++ " marker"
  | .mismatch text expected found =>
      identifier ++ ": triggering example " ++
        quoted (String.ofList text) ++ " expected " ++
        offsetList expected ++ ", got " ++ offsetList found

end ExampleFailure

namespace Rule

/- The path of the source that an example is read as. -/
def examplePath : String :=
  "<example>"

/- The offsets at which a rule finds a text to break it. -/
def offsetsIn
    (r : Rule)
    (text : List Char) : List Int :=
  (r.violations
    (SourceFile.read (Utf8.encode text) examplePath)).map
      fun v => v.location.offset

/- How an example fails that should not trigger a rule. -/
def nonTriggeringFailure?
    (r : Rule)
    (text : List Char) : Option ExampleFailure :=
  let clean := (MarkedText.parse text).text
  let found := r.offsetsIn clean
  if found.isEmpty then none else some (.falseAlarm clean found)

/- How an example fails that should trigger a rule at its markers. -/
def triggeringFailure?
    (r : Rule)
    (text : List Char) : Option ExampleFailure :=
  let marked := MarkedText.parse text
  let expected := marked.offsets.map Int.ofNat
  if expected.isEmpty then some (.unmarked marked.text)
  else
    let found := r.offsetsIn marked.text
    if found = expected then none
    else some (.mismatch marked.text expected found)

/- The failures among the examples of a rule. -/
def exampleFailures (r : Rule) : List ExampleFailure :=
  r.info.nonTriggering.filterMap
      (fun e => r.nonTriggeringFailure? e.toList) ++
    r.info.triggering.filterMap
      (fun e => r.triggeringFailure? e.toList)

end Rule

end CommentLint
