import CommentLint.Proofs.Utf8.Encoding

/-
  Where bytes split between characters.

  Lenient decoding splits before every byte that continues
  no character, whatever comes before it.  In encoded text
  those places are the boundaries of characters.

  Key definitions include:
    * `Utf8.IsFresh`
    * `Utf8.IsBoundary`

  Key results include:
    * `Utf8.decodeLenient_append`
    * `Utf8.mem_decodeLenient`
    * `Utf8.isBoundary_iff`
    * `Utf8.exists_split_of_ascii`
    * `Utf8.exists_encode_eq_slice`
-/

namespace CommentLint

namespace Utf8

------------------------------------------------------------
-- Fresh Bytes
------------------------------------------------------------

/- Bytes that do not begin by continuing a character. -/
def IsFresh (s : Bytes) : Prop :=
  ∀ b ∈ s.head?, ¬ IsTail b

theorem isFresh_nil : IsFresh [] := by
  simp [IsFresh]

/- An ASCII byte continues no character. -/
theorem isFresh_cons
    {b : UInt8}
    (h : b < 0x80)
    (s : Bytes) :
    IsFresh (b :: s) := by
  intro x hx hTail
  cases hx
  exact absurd hTail.1 (UInt8.not_le.mpr h)

/- Only the first byte of a character continues none. -/
theorem WellFormed.tails
    {b : UInt8}
    {tail : Bytes}
    {n : Nat}
    (h : WellFormed (b :: tail) n) :
    ¬ IsTail b ∧ ∀ x ∈ tail, IsTail x := by
  rw [isTail_iff]
  cases h with
  | one hLead hPoint =>
      exact ⟨by omega, by simp⟩
  | two hLead hx hPoint =>
      exact ⟨by omega, by simp [hx]⟩
  | three hLead hx hy hLow hHigh hPoint =>
      exact ⟨by omega, by simp [hx, hy]⟩
  | four hLead hx hy hz hLow hHigh hPoint =>
      exact ⟨by omega, by simp [hx, hy, hz]⟩

/- An ASCII byte is a character by itself. -/
theorem WellFormed.tail_eq_nil
    {b : UInt8}
    {tail : Bytes}
    {n : Nat}
    (h : WellFormed (b :: tail) n)
    (hAscii : b < 0x80) :
    tail = [] := by
  have hByte : b.toNat < 0x80 := UInt8.lt_iff_toNat_lt.mp hAscii
  cases h with
  | one hLead hPoint => rfl
  | two hLead hx hPoint => omega
  | three hLead hx hy hLow hHigh hPoint => omega
  | four hLead hx hy hz hLow hHigh hPoint => omega

/- A character begins freshly, whatever follows it. -/
theorem isFresh_encodeChar_append
    (c : Char)
    (s : Bytes) :
    IsFresh (String.utf8EncodeChar c ++ s) := by
  rcases exists_encodeChar_eq_cons c with
    ⟨b, tail, hBytes, hForm⟩
  rw [hBytes]
  rintro x ⟨⟩
  exact hForm.tails.1

/- Encoded text begins freshly. -/
theorem isFresh_encode (t : List Char) :
    IsFresh (encode t) := by
  cases t with
  | nil => exact isFresh_nil
  | cons c t => exact isFresh_encodeChar_append c (encode t)

------------------------------------------------------------
-- Splitting before Fresh Bytes
------------------------------------------------------------

/- Fresh bytes add nothing to what a lead byte reads. -/
theorem readTails_append
    {low high : UInt8}
    (hLow : 0x80 ≤ low)
    (hHigh : high ≤ 0xBF)
    (code owed : Nat)
    (a : Bytes)
    {s : Bytes}
    (hFresh : IsFresh s) :
    readTails low high code owed (a ++ s) =
      readTails low high code owed a := by
  induction owed generalizing low high code a with
  | zero => rfl
  | succ owed ih =>
      cases a with
      | nil =>
          cases s with
          | nil => rfl
          | cons b s =>
              have hOut : ¬ (low ≤ b ∧ b ≤ high) := by
                intro h
                exact hFresh b rfl
                  ⟨UInt8.le_trans hLow h.1,
                    UInt8.le_trans h.2 hHigh⟩
              simp [readTails, hOut]
      | cons b a =>
          simp only [List.cons_append, readTails]
          rw [ih (by decide) (by decide)]

/- No more continuation bytes are read than there are bytes. -/
theorem readTails_taken_le
    (low high : UInt8)
    (code owed : Nat)
    (s : Bytes) :
    (readTails low high code owed s).1 ≤ s.length := by
  induction owed generalizing low high code s with
  | zero => simp [readTails]
  | succ owed ih =>
      cases s with
      | nil => simp [readTails]
      | cons b s =>
          simp only [readTails]
          split
          · simpa using ih _ _ _ s
          · simp

/- A lead byte only narrows the range of continuation bytes. -/
theorem lead?_range
    {b : UInt8}
    {lead : Lead}
    (h : lead? b = some lead) :
    0x80 ≤ lead.low ∧ lead.high ≤ 0xBF := by
  unfold lead? at h
  split_ifs at h <;> cases h <;>
    exact ⟨by dsimp only; decide, by dsimp only; decide⟩

/- Fresh bytes never become part of an earlier chunk. -/
theorem chunkAt_append
    (b : UInt8)
    (a : Bytes)
    {s : Bytes}
    (hFresh : IsFresh s) :
    chunkAt b (a ++ s) = chunkAt b a := by
  unfold chunkAt
  cases hLead : lead? b with
  | none => rfl
  | some lead =>
      have hRange := lead?_range hLead
      simp only
        [readTails_append hRange.1 hRange.2 _ _ a hFresh]

/- A chunk takes no more bytes than there are. -/
theorem chunkAt_extra_le
    (b : UInt8)
    (s : Bytes) :
    (chunkAt b s).extra ≤ s.length := by
  unfold chunkAt
  cases lead? b with
  | none => simp
  | some lead => exact readTails_taken_le _ _ _ _ _

/- Bytes are cut cleanly before fresh bytes. -/
theorem chunks_append
    (a : Bytes)
    {s : Bytes}
    (hFresh : IsFresh s) :
    chunks (a ++ s) = chunks a ++ chunks s := by
  induction a using chunk_induction with
  | nil => rfl
  | cons b a ih =>
      rw [List.cons_append, chunks_cons, chunks_cons,
        chunkAt_append b a hFresh,
        List.drop_append_of_le_length (chunkAt_extra_le b a),
        ih, List.cons_append]

/- Lenient decoding splits before fresh bytes. -/
theorem decodeLenient_append
    (a : Bytes)
    {s : Bytes}
    (hFresh : IsFresh s) :
    decodeLenient (a ++ s) =
      decodeLenient a ++ decodeLenient s := by
  unfold decodeLenient
  rw [chunks_append a hFresh, List.map_append]

/- Lenient decoding reads text back behind any bytes. -/
theorem decodeLenient_append_encode
    (a : Bytes)
    (t : List Char) :
    decodeLenient (a ++ encode t) = decodeLenient a ++ t := by
  rw [decodeLenient_append a (isFresh_encode t),
    decodeLenient_encode]

/-
  Lenient decoding gives a character only where its bytes
  stand, the replacement character apart.
-/
theorem mem_decodeLenient
    {s : Bytes}
    {c : Char}
    (h : c ∈ decodeLenient s) :
    c = replacement ∨ String.utf8EncodeChar c <:+: s := by
  induction s using chunk_induction with
  | nil => cases h
  | cons b s ih =>
      unfold decodeLenient at h
      rw [chunks_cons, List.map_cons, List.mem_cons] at h
      rcases h with hFirst | hRest
      · cases hChunk : chunkAt b s with
        | mk extra char? =>
        cases char? with
        | none => exact Or.inl (by simpa [hChunk] using hFirst)
        | some d =>
            rcases wellFormed_of_chunkAt hChunk with
              ⟨tail, rest, rfl, _, hForm⟩
            have hSame : c = d := by
              simpa [hChunk] using hFirst
            subst hSame
            right
            rw [hForm.encodeChar_eq]
            exact ⟨[], rest, rfl⟩
      · rcases ih hRest with hEq | hInfix
        · exact Or.inl hEq
        · right
          have hSuffix :
              s.drop (chunkAt b s).extra <:+ b :: s :=
            (List.drop_suffix _ s).trans
              (List.suffix_cons b s)
          exact hInfix.trans hSuffix.isInfix

------------------------------------------------------------
-- Boundaries of Characters
------------------------------------------------------------

/- The number of bytes before a place between characters. -/
def IsBoundary
    (text : List Char)
    (n : Nat) : Prop :=
  ∃ before after,
    text = before ++ after ∧ (encode before).length = n

/- No byte inside a character but the first is fresh. -/
theorem not_isFresh_drop_encodeChar
    {c : Char}
    {n : Nat}
    (hPos : 0 < n)
    (hInside : n < (String.utf8EncodeChar c).length)
    (s : Bytes) :
    ¬ IsFresh ((String.utf8EncodeChar c).drop n ++ s) := by
  rcases exists_encodeChar_eq_cons c with
    ⟨b, tail, hBytes, hForm⟩
  rw [hBytes] at hInside ⊢
  cases n with
  | zero => omega
  | succ n =>
      have hIndex : n < tail.length := by
        simpa using hInside
      intro hFresh
      apply hFresh tail[n] ?_
        (hForm.tails.2 _ (List.getElem_mem hIndex))
      rw [List.drop_succ_cons, List.drop_eq_getElem_cons hIndex]
      rfl

/-
  In encoded text the boundaries of characters are the
  places where the rest begins freshly.
-/
theorem isBoundary_iff
    {text : List Char}
    {n : Nat}
    (hn : n ≤ (encode text).length) :
    IsBoundary text n ↔ IsFresh ((encode text).drop n) := by
  constructor
  · rintro ⟨before, after, rfl, rfl⟩
    rw [encode_append, List.drop_left]
    exact isFresh_encode after
  · intro hFresh
    induction text generalizing n with
    | nil =>
        refine ⟨[], [], rfl, ?_⟩
        simp at hn
        exact hn.symm
    | cons c t ih =>
        rw [encode_cons] at hn hFresh
        rcases Nat.lt_or_ge n (String.utf8EncodeChar c).length
          with hInside | hBeyond
        · rw [List.drop_append_of_le_length
            (Nat.le_of_lt hInside)] at hFresh
          rcases Nat.eq_zero_or_pos n with rfl | hPos
          · exact ⟨[], c :: t, rfl, rfl⟩
          · exact absurd hFresh
              (not_isFresh_drop_encodeChar hPos hInside _)
        · rw [List.drop_append, List.drop_of_length_le hBeyond]
            at hFresh
          rw [List.length_append] at hn
          rcases ih (by omega) hFresh with
            ⟨before, after, rfl, hLength⟩
          refine ⟨c :: before, after, rfl, ?_⟩
          rw [encode_cons, List.length_append]
          omega

/- No boundary lies past the end. -/
theorem IsBoundary.le_length
    {text : List Char}
    {n : Nat}
    (h : IsBoundary text n) :
    n ≤ (encode text).length := by
  rcases h with ⟨before, after, rfl, rfl⟩
  rw [encode_append, List.length_append]
  exact Nat.le_add_right _ _

/- Text starts at a boundary. -/
theorem isBoundary_zero (text : List Char) :
    IsBoundary text 0 :=
  ⟨[], text, rfl, rfl⟩

/- Text ends at a boundary. -/
theorem isBoundary_length (text : List Char) :
    IsBoundary text (encode text).length :=
  ⟨text, [], by simp, rfl⟩

/- A character starts before an ASCII byte. -/
theorem isBoundary_of_ascii
    {text : List Char}
    {n : Nat}
    {b : UInt8}
    (hByte : (encode text)[n]? = some b)
    (hAscii : b < 0x80) :
    IsBoundary text n := by
  rcases List.getElem?_eq_some_iff.mp hByte with ⟨hn, rfl⟩
  rw [isBoundary_iff (Nat.le_of_lt hn),
    List.drop_eq_getElem_cons hn]
  exact isFresh_cons hAscii _

/- A character ends behind an ASCII byte. -/
theorem isBoundary_succ_of_ascii
    {text : List Char}
    {n : Nat}
    {b : UInt8}
    (hByte : (encode text)[n]? = some b)
    (hAscii : b < 0x80) :
    IsBoundary text (n + 1) := by
  rcases isBoundary_of_ascii hByte hAscii with
    ⟨before, after, rfl, rfl⟩
  cases after with
  | nil => simp at hByte
  | cons c after =>
      rcases exists_encodeChar_eq_cons c with
        ⟨x, tail, hBytes, hForm⟩
      have hFirst : x = b := by
        rw [encode_append, encode_cons, hBytes] at hByte
        simpa using hByte
      subst hFirst
      have hTail := hForm.tail_eq_nil hAscii
      refine ⟨before ++ [c], after, by simp, ?_⟩
      simp [hBytes, hTail]

/- A character of one byte is read where its byte stands. -/
theorem exists_split_of_ascii
    {text : List Char}
    {c : Char}
    {b : UInt8}
    {u v : Bytes}
    (hChar : String.utf8EncodeChar c = [b])
    (hAscii : b < 0x80)
    (h : encode text = u ++ b :: v) :
    ∃ before after,
      text = before ++ c :: after ∧
        encode before = u ∧ encode after = v := by
  have hByte : (encode text)[u.length]? = some b := by
    simp [h]
  rcases isBoundary_of_ascii hByte hAscii with
    ⟨before, rest, rfl, hLength⟩
  rw [encode_append] at h
  rcases List.append_inj h hLength with ⟨hBefore, hRest⟩
  rcases exists_of_encode_eq_cons hRest with
    ⟨x, after, tail, rfl, hAfter, hForm⟩
  cases hForm.tail_eq_nil hAscii
  have hSame : encode [x] = encode [c] := by
    simp [hForm.encodeChar_eq, hChar]
  have hText := congrArg decode? hSame
  rw [decode?_encode, decode?_encode] at hText
  cases hText
  exact ⟨before, after, rfl, hBefore, hAfter.symm⟩

/- Text holds the byte where it holds the character. -/
theorem mem_encode_iff
    {text : List Char}
    {c : Char}
    {b : UInt8}
    (hChar : String.utf8EncodeChar c = [b])
    (hAscii : b < 0x80) :
    b ∈ encode text ↔ c ∈ text := by
  constructor
  · intro hByte
    rcases List.append_of_mem hByte with ⟨u, v, hSplit⟩
    rcases exists_split_of_ascii hChar hAscii hSplit with
      ⟨before, after, rfl, _, _⟩
    simp
  · intro hMem
    rcases List.append_of_mem hMem with ⟨before, after, rfl⟩
    simp [hChar]

/- The bytes between two boundaries are encoded text. -/
theorem exists_encode_eq_slice
    {text : List Char}
    {m n : Nat}
    (hm : IsBoundary text m)
    (hn : IsBoundary text n)
    (hLe : m ≤ n) :
    ∃ t, ((encode text).drop m).take (n - m) = encode t := by
  rcases hm with ⟨before, after, rfl, rfl⟩
  rcases hn with ⟨before', after', hText, rfl⟩
  rcases List.append_eq_append_iff.mp hText with
    ⟨t, rfl, rfl⟩ | ⟨t, rfl, rfl⟩
  · exact ⟨t, by simp⟩
  · refine ⟨[], ?_⟩
    simp

end Utf8

end CommentLint
