/-
  Classified spans of a source file.

  Key definitions include:
    * `SpanKind`
    * `Span`
    * `Span.comments`
-/

namespace CommentLint

/-
  What a span of source is.  Spans from elsewhere may carry
  kinds that no rule knows.
-/
inductive SpanKind where
| comment
| docComment
| blockComment
| docBlockComment
| text
| code
| other (name : String)
deriving DecidableEq, Repr

namespace SpanKind

/- The name of a kind. -/
def name : SpanKind → String
  | .comment => "comment"
  | .docComment => "doc_comment"
  | .blockComment => "block_comment"
  | .docBlockComment => "doc_block_comment"
  | .text => "string"
  | .code => "code"
  | .other name => name

/- The kind of a name. -/
def ofName (name : String) : SpanKind :=
  match name with
  | "comment" => .comment
  | "doc_comment" => .docComment
  | "block_comment" => .blockComment
  | "doc_block_comment" => .docBlockComment
  | "string" => .text
  | "code" => .code
  | name => .other name

/- Whether a kind is a comment led by slashes. -/
def isLineComment (k : SpanKind) : Bool :=
  k == .comment || k == .docComment

end SpanKind

/- A span of bytes and its kind. -/
structure Span where
  kind : SpanKind
  offset : Int
  length : Int
deriving DecidableEq, Repr

namespace Span

/- The offset just past a span. -/
def stop (s : Span) : Int :=
  s.offset + s.length

/- The comments led by slashes, in the order given. -/
def comments (spans : List Span) : List Span :=
  spans.filter fun s => s.kind.isLineComment

end Span

end CommentLint
