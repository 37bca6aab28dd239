/-
  Values that are given for options.

  An option may be given with nothing in the place of its
  value.  That is not the same as leaving the option out.

  Key definitions include:
    * `Given`
-/

namespace CommentLint

/- What is given for an option: a value, or nothing. -/
inductive Given (α : Type) where
| value (a : α)
| nothing
deriving DecidableEq, Repr

end CommentLint
