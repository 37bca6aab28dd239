import CommentLint.Rule.Basic
import CommentLint.Spacing

/-
  The rule that text in a comment stands apart from the
  slashes.

  Key definitions include:
    * `CommentSpacing.info`
    * `CommentSpacing.findings`
    * `CommentSpacing.rule`
-/

namespace CommentLint

namespace CommentSpacing

/- What the rule says about itself. -/
def info : RuleInfo :=
  { identifier := "comment_spacing"
    name := "Comment Spacing"
    description :=
      "Prefer at least one space after slashes for comments."
    nonTriggering :=
      [
        "// This is a comment",
        "/// Triple slash comment",
        "// Multiline double-slash\n// comment",
        "/// Multiline triple-slash\n/// comment",
        "/// Multiline triple-slash\n///   - This is indented",
        "// - MARK: Mark comment",
        "/* Asterisk comment */",
        "/*\n    Multiline asterisk comment\n*/",
        "//// Four slashes are left alone",
        "////Even without a space",
        "//",
        "let url = \"http://example.com\""
      ]
    triggering :=
      [
        "//↓Something",
        "//↓MARK",
        "//↓👨‍👨‍👦‍👦Something",
        "func a() \x7b\n    //↓This needs refactoring\n    print(\"Something\")\n\x7d\n//↓We should improve above function",
        "///↓This is a comment",
        "/// Multiline triple-slash\n///↓This line is incorrect, though",
        "//↓- MARK: Mark comment"
      ] }

/-
  What a comment gives: its glued character, no finding, or
  the span itself when its bytes give no text.
-/
def finding?
    (f : SourceFile)
    (s : Span) : Option Finding :=
  match f.spanText? s with
  | none => some (.unresolved s)
  | some text =>
      (Glued.find? text).map
        fun g => .flagged (s.offset + g.offset)

/- The findings among the comments of a file. -/
def findings (f : SourceFile) : List Finding :=
  (Span.comments f.spans).filterMap (finding? f)

/- The rule at a severity. -/
def rule (severity : Severity) : Rule :=
  ⟨info, severity, findings⟩

end CommentSpacing

end CommentLint
