/-
  Sets of characters given as ranges of code points.

  Key definitions include:
    * `CodeRanges`
    * `CodeRanges.has`
-/

namespace CommentLint

/- Ranges of code points, both ends included. -/
abbrev CodeRanges :=
  List (Nat × Nat)

namespace CodeRanges

/- Whether some range holds the code point. -/
def has
    (ranges : CodeRanges)
    (n : Nat) : Bool :=
  ranges.any fun (first, last) => first ≤ n && n ≤ last

end CodeRanges

end CommentLint
