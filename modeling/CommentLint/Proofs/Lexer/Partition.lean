import CommentLint.Proofs.Lexer.Scan
import Mathlib.Tactic.Common

/-
  The spans of a source file partition its bytes.

  The spans stand in order without overlap, and what they
  leave out is blank.  A code span holds no blank byte, and no
  code span touches another.

  Key definitions include:
    * `Span.Covers`
    * `Lexer.Partitions`

  Key results include:
    * `Lexer.Scans.bounds`
    * `Lexer.tokenize_partitions`
-/

namespace CommentLint

/- A span covers the bytes from its offset up to its stop. -/
def Span.Covers
    (s : Span)
    (n : Nat) : Prop :=
  s.offset ≤ n ∧ n < s.stop

instance (s : Span) (n : Nat) : Decidable (s.Covers n) := by
  unfold Span.Covers
  infer_instance

namespace Lexer

variable {d : Dialect}
variable {data : Bytes}
variable {pos : Nat}
variable {spans : List Span}

------------------------------------------------------------
-- Blank Bytes
------------------------------------------------------------

/-
  Space, tab, carriage return, line feed, form feed, and
  vertical tab.
-/
def blankBytes : Bytes :=
  [0x20, 0x09, 0x0D, 0x0A, 0x0C, 0x0B]

/- These are the bytes that count as blank. -/
theorem isBlank_iff_mem
    {b : UInt8} :
    Ascii.isBlank b = true ↔ b ∈ blankBytes := by
  simp only [Ascii.isBlank, blankBytes, Bool.or_eq_true,
    beq_iff_eq, Bool.and_eq_true, decide_eq_true_eq,
    List.mem_cons, List.not_mem_nil, or_false,
    UInt8.le_iff_toNat_le, ← UInt8.toNat_inj]
  simp
  omega

------------------------------------------------------------
-- Bounds
------------------------------------------------------------

/- A run starts no further than the end of the bytes. -/
theorem Scans.le_length
    (h : Scans d data pos spans) :
    pos ≤ data.length := by
  induction h with
  | stop => exact Nat.le_refl _
  | token _ _ ih => omega
  | blank _ _ ih => omega
  | code _ _ _ _ ih => omega

/- The spans of a run start no sooner than it and end inside. -/
theorem Scans.bounds
    {s : Span}
    (h : Scans d data pos spans)
    (hMem : s ∈ spans) :
    pos ≤ s.offset ∧ 1 ≤ s.length ∧ s.stop ≤ data.length := by
  induction h with
  | stop => cases hMem
  | @token pos width kind spans hToken hRest ih =>
      rcases List.mem_cons.mp hMem with rfl | hLater
      · have hIn := hRest.le_length
        have hWidth :=
          (lexeme_of_token? hToken).endsInside.pos
        simp only [Span.stop]
        omega
      · have hBounds := ih hLater
        omega
  | blank _ _ ih =>
      have hBounds := ih hMem
      omega
  | @code pos next spans hLt _ _ hRest ih =>
      rcases List.mem_cons.mp hMem with rfl | hLater
      · have hIn := hRest.le_length
        simp only [Span.stop]
        omega
      · have hBounds := ih hLater
        omega

/- Each span of a run ends before the next ones start. -/
theorem Scans.disjoint
    (h : Scans d data pos spans) :
    spans.Pairwise fun a b => a.stop ≤ b.offset := by
  induction h with
  | stop => exact List.Pairwise.nil
  | @token pos width kind spans _ hRest ih =>
      refine List.Pairwise.cons ?_ ih
      intro s hMem
      have hBounds := hRest.bounds hMem
      simp only [Span.stop]
      omega
  | blank _ _ ih => exact ih
  | @code pos next spans hLt _ _ hRest ih =>
      refine List.Pairwise.cons ?_ ih
      intro s hMem
      have hBounds := hRest.bounds hMem
      simp only [Span.stop]
      omega

/- The spans of a run start in strictly increasing order. -/
theorem Scans.ordered
    (h : Scans d data pos spans) :
    spans.Pairwise fun a b => a.offset < b.offset := by
  apply h.disjoint.imp_of_mem
  intro a b hFirst _ hLe
  have hLength := (h.bounds hFirst).2.1
  simp only [Span.stop] at hLe
  omega

------------------------------------------------------------
-- Code
------------------------------------------------------------

/- Each byte of a code span is plain. -/
theorem Scans.isPlainAt_of_mem
    {s : Span}
    {n : Nat}
    (h : Scans d data pos spans)
    (hMem : s ∈ spans)
    (hCode : s.kind = .code)
    (hCovers : s.Covers n) :
    IsPlainAt d data n := by
  induction h with
  | stop => cases hMem
  | token hToken _ ih =>
      rcases List.mem_cons.mp hMem with rfl | hLater
      · exact absurd hCode (lexeme_of_token? hToken).kind_ne_code
      · exact ih hLater
  | blank _ _ ih => exact ih hMem
  | code _ hRun _ _ ih =>
      rcases List.mem_cons.mp hMem with rfl | hLater
      · rcases hCovers with ⟨hFrom, hTo⟩
        simp only [Span.stop] at hFrom hTo
        exact hRun n (by omega) (by omega)
      · exact ih hLater

/- A code span holds no blank byte. -/
theorem Scans.not_mem_blankBytes
    {s : Span}
    {n : Nat}
    {b : UInt8}
    (h : Scans d data pos spans)
    (hMem : s ∈ spans)
    (hCode : s.kind = .code)
    (hCovers : s.Covers n)
    (hByte : data[n]? = some b) :
    b ∉ blankBytes := by
  rcases h.isPlainAt_of_mem hMem hCode hCovers with
    ⟨_, c, hOther, hPlain⟩
  cases hByte.symm.trans hOther
  rw [← isBlank_iff_mem, hPlain]
  exact Bool.false_ne_true

/- Where no plain byte stands, code starts only further on. -/
theorem Scans.lt_of_mem_code
    {s : Span}
    (h : Scans d data pos spans)
    (hPlain : ¬ IsPlainAt d data pos)
    (hMem : s ∈ spans)
    (hCode : s.kind = .code) :
    pos < s.offset := by
  cases h with
  | stop => cases hMem
  | token hToken hRest =>
      rcases List.mem_cons.mp hMem with rfl | hLater
      · exact absurd hCode (lexeme_of_token? hToken).kind_ne_code
      · have hWidth :=
          (lexeme_of_token? hToken).endsInside.pos
        have hBounds := hRest.bounds hLater
        omega
  | blank _ hRest =>
      have hBounds := hRest.bounds hMem
      omega
  | code hLt hRun =>
      exact absurd (hRun pos (Nat.le_refl pos) hLt) hPlain

/- Each code span ends before the next ones start. -/
theorem Scans.code_apart
    (h : Scans d data pos spans) :
    spans.Pairwise fun a b =>
      a.kind = .code → b.kind = .code → a.stop < b.offset := by
  induction h with
  | stop => exact List.Pairwise.nil
  | token hToken _ ih =>
      refine List.Pairwise.cons ?_ ih
      intro s _ hCode _
      exact absurd hCode (lexeme_of_token? hToken).kind_ne_code
  | blank _ _ ih => exact ih
  | code hLt _ hPlain hRest ih =>
      refine List.Pairwise.cons ?_ ih
      intro s hMem _ hCode
      have hAfter := hRest.lt_of_mem_code hPlain hMem hCode
      simp only [Span.stop]
      omega

------------------------------------------------------------
-- What Is Left Out
------------------------------------------------------------

/- A span that starts at an offset covers up to its width. -/
theorem covers_mk
    {kind : SpanKind}
    {pos width n : Nat}
    (hFrom : pos ≤ n)
    (hTo : n < pos + width) :
    Span.Covers ⟨kind, pos, width⟩ n := by
  simp only [Span.Covers, Span.stop]
  omega

/- A byte that no span of a run covers is blank. -/
theorem Scans.isBlankAt
    {n : Nat}
    (h : Scans d data pos spans)
    (hFrom : pos ≤ n)
    (hIn : n < data.length)
    (hNone : ∀ s ∈ spans, ¬ s.Covers n) :
    IsBlankAt d data n := by
  induction h with
  | stop => omega
  | @token pos width kind spans _ _ ih =>
      rw [List.forall_mem_cons] at hNone
      refine ih ?_ hNone.2
      by_contra hBefore
      exact hNone.1 (covers_mk hFrom (by omega))
  | @blank pos spans hBlank _ ih =>
      rcases Nat.eq_or_lt_of_le hFrom with rfl | hLater
      · exact hBlank
      · exact ih hLater hNone
  | @code pos next spans hLt _ _ _ ih =>
      rw [List.forall_mem_cons] at hNone
      refine ih ?_ hNone.2
      by_contra hBefore
      exact hNone.1 (covers_mk hFrom (by omega))

/- What a run from the start leaves out is blank. -/
theorem Scans.mem_blankBytes
    {n : Nat}
    {b : UInt8}
    (h : Scans d data 0 spans)
    (hByte : data[n]? = some b)
    (hNone : ∀ s ∈ spans, ¬ s.Covers n) :
    b ∈ blankBytes := by
  have hIn := (List.getElem?_eq_some_iff.mp hByte).1
  rcases h.isBlankAt (Nat.zero_le n) hIn hNone with
    ⟨_, c, hOther, hBlank⟩
  cases hByte.symm.trans hOther
  exact isBlank_iff_mem.mp hBlank

------------------------------------------------------------
-- Partitions
------------------------------------------------------------

/- Spans that partition what is not blank. -/
structure Partitions
    (data : Bytes)
    (spans : List Span) : Prop where
  nonempty : ∀ s ∈ spans, 1 ≤ s.length
  inside : ∀ s ∈ spans, 0 ≤ s.offset ∧ s.stop ≤ data.length
  ordered : spans.Pairwise fun a b => a.offset < b.offset
  disjoint : spans.Pairwise fun a b => a.stop ≤ b.offset
  blank :
    ∀ n b, data[n]? = some b →
      (∀ s ∈ spans, ¬ s.Covers n) → b ∈ blankBytes
  code :
    ∀ s ∈ spans, s.kind = .code →
      ∀ n b, s.Covers n → data[n]? = some b → b ∉ blankBytes
  apart :
    spans.Pairwise fun a b =>
      a.kind = .code → b.kind = .code → a.stop < b.offset

/-
  The spans of a source file partition its bytes, and each
  token that the lexer takes moves it on inside them.
-/
theorem tokenize_partitions
    (d : Dialect)
    (data : Bytes) :
    Partitions data (tokenize d data) ∧
      ∀ pos kind width,
        token? d (data.drop pos) = some (kind, width) →
          1 ≤ width ∧ pos + width ≤ data.length := by
  have hScans := scans_tokenize d data
  refine ⟨?_, fun pos kind width => width_of_token?⟩
  exact
    { nonempty := fun s hMem => (hScans.bounds hMem).2.1
      inside := fun s hMem =>
        ⟨(hScans.bounds hMem).1, (hScans.bounds hMem).2.2⟩
      ordered := hScans.ordered
      disjoint := hScans.disjoint
      blank := fun n b hByte hNone =>
        hScans.mem_blankBytes hByte hNone
      code := fun s hMem hCode n b hCovers hByte =>
        hScans.not_mem_blankBytes hMem hCode hCovers hByte
      apart := hScans.code_apart }

end Lexer

end CommentLint
