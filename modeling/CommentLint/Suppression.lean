import CommentLint.Rule.Basic
import CommentLint.Text.Blank
import CommentLint.Text.Casing
import CommentLint.Text.Pattern

/-
  Suppression of violations by directives in the source.

  A directive on a line suppresses violations on that line:
  all of them, or those of the rules that it names.  The first
  directive of a line counts, which a pattern finds.

  Key definitions include:
    * `Suppression`
    * `Suppression.directive`
    * `Suppression.ofLine?`
    * `Suppression.ofData`
    * `Suppression.filter`
-/

namespace CommentLint

/- What a directive suppresses. -/
inductive Suppression where
| all
| rules (ids : List String)
deriving DecidableEq, Repr

namespace Suppression

------------------------------------------------------------
-- Characters of a Directive
------------------------------------------------------------

/- The words that start a directive. -/
def keyword : List Char :=
  "lexlint:ignore".toList

/-
  Whether a character stands for a small letter or sign, in
  any case.
-/
def matchesLetter (letter c : Char) : Bool :=
  c == letter || c.toLower == letter ||
    (letter == 'i' && (c == '\u0130' || c == '\u0131'))

/- The margin before rule names is of spaces and tabs. -/
def isMargin (c : Char) : Bool :=
  c == ' ' || c == '\t'

/- The gaps between rule names also have commas. -/
def isGap (c : Char) : Bool :=
  isMargin c || c == ','

/-
  The characters of rule names: letters of ASCII and those
  that casing relates to them, digits, `_` and `-`.
-/
def isNameChar (c : Char) : Bool :=
  c.isAlphanum || c == '_' || c == '-' || c == '\u0130' ||
    c == '\u0131' || c == '\u017F' || c == '\u212A'

/- The characters that may follow the words of a directive. -/
def isTail (c : Char) : Bool :=
  isNameChar c || isGap c

------------------------------------------------------------
-- Directives
------------------------------------------------------------

/- A margin and a tail with rule names; both may be missing. -/
def ruleNames : Pattern :=
  .optional (.andThen (.many isMargin) (.kept (.many isTail)))

/- The words of a directive and its rule names. -/
def directive : Pattern :=
  .behind (keyword.map matchesLetter) ruleNames

/- Rule names are separated by whitespace and commas. -/
def isSeparator (c : Char) : Bool :=
  isBlank c || c == ','

/- The rule names in the tail of a directive, in small letters. -/
def names (tail : List Char) : List String :=
  ((tail.splitOnP isSeparator).filter fun n => !n.isEmpty).map
    fun n => String.ofList (Casing.lower n)

/- What the tail of a directive asks for, if it has one. -/
def ofTail? : Option (List Char) → Suppression
  | none => .all
  | some tail =>
      match names tail with
      | [] => .all
      | ids => .rules ids.eraseDups

/- The suppression on a line. -/
def ofLine? (line : List Char) : Option Suppression :=
  (directive.search? line).map fun found => ofTail? found.kept?

/- The suppressions in a file, with the numbers of their lines. -/
def ofData (data : Bytes) : List (Int × Suppression) :=
  (((Utf8.decodeLenient data).splitOn '\n').zipIdx 1).filterMap
    fun (line, n) =>
      (ofLine? line).map fun s => ((n : Int), s)

------------------------------------------------------------
-- Application
------------------------------------------------------------

/- Whether a suppression covers a rule. -/
def covers
    (s : Suppression)
    (ruleId : String) : Bool :=
  match s with
  | .all => true
  | .rules ids => ids.contains ruleId

/- Whether a violation is suppressed. -/
def suppresses
    (found : List (Int × Suppression))
    (v : Violation) : Bool :=
  match found.lookup v.location.line with
  | none => false
  | some s => s.covers v.ruleId

/- The violations that are not suppressed. -/
def filter
    (data : Bytes)
    (violations : List Violation) : List Violation :=
  let found := ofData data
  violations.filter fun v => !suppresses found v

end Suppression

end CommentLint
