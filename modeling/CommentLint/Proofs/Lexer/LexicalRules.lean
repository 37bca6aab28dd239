import CommentLint.Proofs.Lexer.LexemeUnique
import CommentLint.Proofs.Lexer.Partition
import Mathlib.Tactic.Common

/-
  The spans of a source file follow its lexical rules.

  No opener of the dialect begins where no token was taken,
  and every token starts with an opener and ends where the
  rule of that opener says.

  Key definitions include:
    * `Lexer.IsOutside`

  Key results include:
    * `Lexer.tokenize_follows_rules`
-/

namespace CommentLint

namespace Lexer

variable {d : Dialect}
variable {data : Bytes}
variable {pos : Nat}
variable {spans : List Span}

/- An offset lies inside a code span or outside all spans. -/
def IsOutside
    (spans : List Span)
    (n : Nat) : Prop :=
  (∃ s ∈ spans, s.kind = .code ∧ s.Covers n) ∨
    ∀ s ∈ spans, ¬ s.Covers n

/- No token starts outside of the tokens of a run. -/
theorem Scans.token?_eq_none
    {n : Nat}
    (h : Scans d data 0 spans)
    (hOutside : IsOutside spans n) :
    token? d (data.drop n) = none := by
  rcases hOutside with ⟨s, hMem, hCode, hCovers⟩ | hNone
  · exact (h.isPlainAt_of_mem hMem hCode hCovers).1
  · rcases Nat.lt_or_ge n data.length with hIn | hEnd
    · exact (h.isBlankAt (Nat.zero_le n) hIn hNone).1
    · rw [List.drop_eq_nil_of_le hEnd]
      rfl

/- Each span of a run that is no code is a token. -/
theorem Scans.token?_of_mem
    {s : Span}
    (h : Scans d data pos spans)
    (hMem : s ∈ spans)
    (hKind : s.kind ≠ .code) :
    ∃ n width : Nat,
      s = ⟨s.kind, n, width⟩ ∧
        token? d (data.drop n) = some (s.kind, width) := by
  induction h with
  | stop => cases hMem
  | @token pos width kind spans hToken _ ih =>
      rcases List.mem_cons.mp hMem with rfl | hLater
      · exact ⟨pos, width, rfl, hToken⟩
      · exact ih hLater
  | blank _ _ ih => exact ih hMem
  | code _ _ _ _ ih =>
      rcases List.mem_cons.mp hMem with rfl | hLater
      · exact absurd rfl hKind
      · exact ih hLater

/-
  No opener begins outside of the tokens, and each token is a
  lexeme of the dialect where it stands.
-/
theorem tokenize_follows_rules
    (d : Dialect)
    (data : Bytes) :
    (∀ n, IsOutside (tokenize d data) n →
      ¬ Opens d (data.drop n)) ∧
    ∀ s ∈ tokenize d data, s.kind ≠ .code →
      ∃ n width : Nat,
        s = ⟨s.kind, n, width⟩ ∧
          Lexeme d (data.drop n) s.kind width := by
  have hScans := scans_tokenize d data
  refine ⟨?_, ?_⟩
  · intro n hOutside
    exact not_opens_of_token? (hScans.token?_eq_none hOutside)
  · intro s hMem hKind
    rcases hScans.token?_of_mem hMem hKind with
      ⟨n, width, hSpan, hToken⟩
    exact ⟨n, width, hSpan, token?_eq_some_iff.mp hToken⟩

end Lexer

end CommentLint
