import CommentLint.Violation

/-
  Violations of many files put together.

  Violations with the same file, rule, offset and message are
  one: the last of them, at the place of the first.  The
  result is in order of file, offset and rule.

  Key definitions include:
    * `Violation.Key`
    * `Violation.merged`
-/

namespace CommentLint

namespace Violation

/- What makes two violations the same. -/
structure Key where
  path : String
  ruleId : String
  offset : Int
  message : String
deriving DecidableEq, Repr

/- The key of a violation. -/
def key (v : Violation) : Key :=
  ⟨v.location.path, v.ruleId, v.location.offset, v.message⟩

/- Put a violation in the place of the one with its key, or last. -/
def insert
    (v : Violation) :
    List Violation → List Violation
  | [] => [v]
  | w :: rest =>
      if w.key = v.key then v :: rest else w :: insert v rest

/- The order by file, offset and rule. -/
def le (v w : Violation) : Bool :=
  decide (v.location.path < w.location.path) ||
    (v.location.path == w.location.path &&
      (decide (v.location.offset < w.location.offset) ||
        (v.location.offset == w.location.offset &&
          decide (v.ruleId ≤ w.ruleId))))

/- Violations without repetitions, in order. -/
def merged (violations : List Violation) : List Violation :=
  (violations.foldl (fun found v => insert v found) []).mergeSort
    le

end Violation

end CommentLint
