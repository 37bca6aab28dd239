/-
  Patterns in text, matched by backtracking.

  A pattern is tried at the start of a text.  A repetition
  takes all the characters that it can and gives them back,
  the last ones first, while what follows does not match.  A
  part that may be left out is tried before it is left out.
  A search takes the first place at which a pattern matches.

  Key definitions include:
    * `Pattern`
    * `Pattern.Way`
    * `Pattern.attempt`
    * `Pattern.search?`
-/

namespace CommentLint

/-
  A character of a class, one or more of them, one pattern and
  then another, a pattern that may be left out, or a pattern
  whose text is kept.
-/
inductive Pattern where
| one (accepts : Char → Bool)
| many (accepts : Char → Bool)
| andThen (first second : Pattern)
| optional (part : Pattern)
| kept (part : Pattern)

namespace Pattern

/- How far a match has come: the text it kept, and what is left. -/
structure Way where
  kept? : Option (List Char)
  rest : List Char
deriving DecidableEq, Repr

/-
  Take one or more characters of a class, as many as can be
  taken for the rest to match.
-/
def takeMany
    (accepts : Char → Bool)
    (next : List Char → Option Way) :
    List Char → Option Way
  | [] => none
  | c :: text =>
      if accepts c then
        match takeMany accepts next text with
        | some found => some found
        | none => next text
      else none

/- The first way to match a pattern for which the rest matches. -/
def attempt :
    Pattern → (Way → Option Way) → Way → Option Way
  | one accepts, next, w =>
      match w.rest with
      | [] => none
      | c :: text =>
          if accepts c then next { w with rest := text }
          else none
  | many accepts, next, w =>
      takeMany accepts (fun text => next { w with rest := text })
        w.rest
  | andThen first second, next, w =>
      first.attempt (second.attempt next) w
  | optional part, next, w =>
      match part.attempt next w with
      | some found => some found
      | none => next w
  | kept part, next, w =>
      part.attempt
        (fun after =>
          let taken := w.rest.length - after.rest.length
          next { after with kept? := some (w.rest.take taken) })
        w

/- A pattern behind characters of given classes, one of each. -/
def behind
    (classes : List (Char → Bool))
    (p : Pattern) : Pattern :=
  classes.foldr (fun accepts rest => andThen (one accepts) rest) p

/- The match of a pattern at the first place that has one. -/
def search? (p : Pattern) : List Char → Option Way
  | [] => p.attempt some ⟨none, []⟩
  | c :: text =>
      match p.attempt some ⟨none, c :: text⟩ with
      | some found => some found
      | none => p.search? text

end Pattern

end CommentLint
