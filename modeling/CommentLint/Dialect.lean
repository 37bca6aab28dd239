import CommentLint.Path
import CommentLint.Text.Casing

/-
  Lexical dialects of languages with slash comments.

  Languages differ in whether block comments nest and in what
  an apostrophe or a backtick opens.  The dialect of a file
  follows from the suffix of its name.

  Key definitions include:
    * `Dialect`
    * `Dialect.ofPath`
-/

namespace CommentLint

------------------------------------------------------------
-- Dialects
------------------------------------------------------------

/-
  What an apostrophe opens: quoted text, a complete character
  literal and nothing else, or nothing.
-/
inductive Apostrophe where
| text
| character
| plain
deriving DecidableEq, Repr

/- What a backtick opens: text with or without escapes, or nothing. -/
inductive Backtick where
| escaped
| raw
| plain
deriving DecidableEq, Repr

/- The lexical choices in which languages differ. -/
structure Dialect where
  nestedBlocks : Bool := true
  apostrophe : Apostrophe := .plain
  backtick : Backtick := .plain
deriving DecidableEq, Repr

namespace Dialect

/- Nesting comments; an apostrophe means nothing. -/
def swift : Dialect :=
  ⟨true, .plain, .plain⟩

/- Flat comments and character literals. -/
def cFamily : Dialect :=
  ⟨false, .character, .plain⟩

/- Flat comments, apostrophe strings and templates. -/
def javaScript : Dialect :=
  ⟨false, .text, .escaped⟩

/- Flat comments, character literals and raw strings. -/
def go : Dialect :=
  ⟨false, .character, .raw⟩

/- Nesting comments and character literals. -/
def nestingCharacter : Dialect :=
  ⟨true, .character, .plain⟩

/- Nesting comments and apostrophe strings. -/
def dart : Dialect :=
  ⟨true, .text, .plain⟩

------------------------------------------------------------
-- Dialects by Suffix
------------------------------------------------------------

/- The suffixes whose dialect is known. -/
def bySuffix : List (String × Dialect) :=
  [
    (".swift", swift), (".c", cFamily), (".h", cFamily),
    (".m", cFamily), (".mm", cFamily), (".cpp", cFamily),
    (".hpp", cFamily), (".cc", cFamily), (".cs", cFamily),
    (".java", cFamily), (".go", go), (".js", javaScript),
    (".jsx", javaScript), (".ts", javaScript),
    (".tsx", javaScript), (".rs", nestingCharacter),
    (".kt", nestingCharacter), (".kts", nestingCharacter),
    (".scala", nestingCharacter), (".dart", dart)
  ]

/- The dialect of a file, by the suffix of its name. -/
def ofPath (path : String) : Dialect :=
  (bySuffix.lookup (lowerString (Path.ofString path).suffix)).getD
    swift

end Dialect

end CommentLint
