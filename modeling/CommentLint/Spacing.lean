import CommentLint.Text.Blank

/-
  Slashes glued to the text of a comment.

  A comment is glued when two or three slashes lead it and the
  next character is neither a slash nor spacing.

  Key definitions include:
    * `Glued`
    * `Glued.find?`
-/

namespace CommentLint

/-
  The bytes of leading slashes and the character glued to
  them, and the width of that character.
-/
structure Glued where
  start : Nat
  stop : Nat
  width : Nat
deriving DecidableEq, Repr

namespace Glued

/- The offset of the character that is glued to the slashes. -/
def offset (g : Glued) : Nat :=
  g.stop - g.width

/- The number of slashes that lead a text. -/
def slashes (text : List Char) : Nat :=
  (text.takeWhile (· == '/')).length

/- The glued start of a comment's text. -/
def find? (text : List Char) : Option Glued :=
  let n := slashes text
  if n < 2 ∨ 3 < n then none
  else
    match text.drop n with
    | [] => none
    | c :: _ =>
        if isSpacing c then none
        else some ⟨0, n + c.utf8Size, c.utf8Size⟩

end Glued

end CommentLint
