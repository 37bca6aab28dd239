import CommentLint.Text.Utf8
import Mathlib.Tactic.Common

/-
  Decoding against encoding.

  The well-formed byte sequences stand between the two: they
  are what a chunk that is a character spans, and what the
  encoding of a character writes.

  Key definitions include:
    * `Utf8.IsTail`
    * `Utf8.WellFormed`

  Key results include:
    * `Utf8.chunk_induction`
    * `Utf8.wellFormed_of_chunkAt`
    * `Utf8.chunkAt_of_wellFormed`
    * `Utf8.decode?_eq_some_iff`
    * `Utf8.decodeLenient_encode_append`
-/

namespace CommentLint

namespace Utf8

------------------------------------------------------------
-- Induction over Chunks
------------------------------------------------------------

/- What holds behind the first chunk holds of all bytes. -/
theorem chunk_induction
    {motive : Bytes → Prop}
    (nil : motive [])
    (cons : ∀ b s,
      motive (s.drop (chunkAt b s).extra) → motive (b :: s))
    (s : Bytes) :
    motive s := by
  induction hLength : s.length using Nat.strongRecOn
    generalizing s with
  | ind n ih =>
      cases s with
      | nil => exact nil
      | cons b s =>
          apply cons
          refine ih _ ?_ _ rfl
          simp at hLength ⊢
          omega

------------------------------------------------------------
-- Continuation Bytes
------------------------------------------------------------

/- A byte that continues a character. -/
def IsTail (b : UInt8) : Prop :=
  0x80 ≤ b ∧ b ≤ 0xBF

instance (b : UInt8) : Decidable (IsTail b) := by
  unfold IsTail
  infer_instance

/- The range of continuation bytes, in numbers. -/
theorem isTail_iff {b : UInt8} :
    IsTail b ↔ 0x80 ≤ b.toNat ∧ b.toNat ≤ 0xBF := by
  simp [IsTail, UInt8.le_iff_toNat_le]

/- One more continuation byte is read when it is in range. -/
theorem readTails_succ_eq_some_iff
    {low high : UInt8}
    {code owed taken point : Nat}
    {s : Bytes} :
    readTails low high code (owed + 1) s =
        (taken, some point) ↔
      ∃ b rest more,
        s = b :: rest ∧ low ≤ b ∧ b ≤ high ∧
          taken = more + 1 ∧
          readTails 0x80 0xBF
              (code * 64 + (b.toNat - 0x80)) owed rest =
            (more, some point) := by
  cases s with
  | nil => simp [readTails]
  | cons b rest =>
      by_cases hRange : low ≤ b ∧ b ≤ high
      · simp [readTails, hRange, Prod.ext_iff, eq_comm]
      · simp [readTails, hRange]
        intro h1 h2
        exact absurd ⟨h1, h2⟩ hRange

------------------------------------------------------------
-- Well-Formed Sequences
------------------------------------------------------------

/- The number of a character that is made from a valid number. -/
theorem toNat_ofNat
    {n : Nat}
    (h : n.isValidChar) :
    (Char.ofNat n).val.toNat = n := by
  unfold Char.ofNat
  rw [dif_pos h]
  rfl

/- A byte is known by its number. -/
theorem ofNat_eq_byte
    {n : Nat}
    {b : UInt8}
    (h : n = b.toNat) :
    UInt8.ofNat n = b := by
  simp [h]

/-
  The well-formed byte sequences, with the code points that
  they stand for.
-/
inductive WellFormed : Bytes → Nat → Prop where
| one {a : UInt8} {n : Nat}
    (hLead : a.toNat ≤ 0x7F)
    (hPoint : n = a.toNat) :
    WellFormed [a] n
| two {a x : UInt8} {n : Nat}
    (hLead : 0xC2 ≤ a.toNat ∧ a.toNat ≤ 0xDF)
    (hx : IsTail x)
    (hPoint :
      n = (a.toNat - 0xC0) * 64 + (x.toNat - 0x80)) :
    WellFormed [a, x] n
| three {a x y : UInt8} {n : Nat}
    (hLead : 0xE0 ≤ a.toNat ∧ a.toNat ≤ 0xEF)
    (hx : IsTail x) (hy : IsTail y)
    (hLow : a.toNat = 0xE0 → 0xA0 ≤ x.toNat)
    (hHigh : a.toNat = 0xED → x.toNat ≤ 0x9F)
    (hPoint :
      n = ((a.toNat - 0xE0) * 64 + (x.toNat - 0x80)) * 64 +
        (y.toNat - 0x80)) :
    WellFormed [a, x, y] n
| four {a x y z : UInt8} {n : Nat}
    (hLead : 0xF0 ≤ a.toNat ∧ a.toNat ≤ 0xF4)
    (hx : IsTail x) (hy : IsTail y) (hz : IsTail z)
    (hLow : a.toNat = 0xF0 → 0x90 ≤ x.toNat)
    (hHigh : a.toNat = 0xF4 → x.toNat ≤ 0x8F)
    (hPoint :
      n = (((a.toNat - 0xF0) * 64 + (x.toNat - 0x80)) * 64 +
        (y.toNat - 0x80)) * 64 + (z.toNat - 0x80)) :
    WellFormed [a, x, y, z] n

namespace WellFormed

/- A well-formed sequence stands for a Unicode scalar value. -/
theorem isValidChar
    {bytes : Bytes}
    {n : Nat}
    (h : WellFormed bytes n) :
    n.isValidChar := by
  unfold Nat.isValidChar
  cases h with
  | one hLead hPoint => omega
  | two hLead hx hPoint =>
      rw [isTail_iff] at hx
      omega
  | three hLead hx hy hLow hHigh hPoint =>
      rw [isTail_iff] at hx hy
      omega
  | four hLead hx hy hz hLow hHigh hPoint =>
      rw [isTail_iff] at hx hy hz
      omega

/- A well-formed sequence encodes the character it stands for. -/
theorem encodeChar_eq
    {bytes : Bytes}
    {c : Char}
    (h : WellFormed bytes c.val.toNat) :
    String.utf8EncodeChar c = bytes := by
  unfold String.utf8EncodeChar
  generalize c.val.toNat = n at h ⊢
  cases h with
  | one hLead hPoint =>
      rw [if_pos (by omega), ofNat_eq_byte hPoint]
  | two hLead hx hPoint =>
      rw [isTail_iff] at hx
      rw [if_neg (by omega), if_pos (by omega)]
      simp only [List.cons.injEq, and_true]
      exact ⟨ofNat_eq_byte (by omega), ofNat_eq_byte (by omega)⟩
  | three hLead hx hy hLow hHigh hPoint =>
      rw [isTail_iff] at hx hy
      rw [if_neg (by omega), if_neg (by omega),
        if_pos (by omega)]
      simp only [List.cons.injEq, and_true]
      exact ⟨ofNat_eq_byte (by omega), ofNat_eq_byte (by omega),
        ofNat_eq_byte (by omega)⟩
  | four hLead hx hy hz hLow hHigh hPoint =>
      rw [isTail_iff] at hx hy hz
      rw [if_neg (by omega), if_neg (by omega),
        if_neg (by omega)]
      simp only [List.cons.injEq, and_true]
      exact ⟨ofNat_eq_byte (by omega), ofNat_eq_byte (by omega),
        ofNat_eq_byte (by omega), ofNat_eq_byte (by omega)⟩

/- The bytes of a character are well-formed. -/
theorem of_char (c : Char) :
    WellFormed (String.utf8EncodeChar c) c.val.toNat := by
  have hValid : c.val.toNat.isValidChar := c.valid
  unfold Nat.isValidChar at hValid
  unfold String.utf8EncodeChar
  generalize c.val.toNat = n at hValid ⊢
  dsimp only
  split_ifs with hOne hTwo hThree
  · apply one <;> simp only [UInt8.toNat_ofNat'] <;> omega
  · apply two <;>
      simp only [isTail_iff, UInt8.toNat_ofNat'] <;> omega
  · apply three <;>
      simp only [isTail_iff, UInt8.toNat_ofNat'] <;> omega
  · apply four <;>
      simp only [isTail_iff, UInt8.toNat_ofNat'] <;> omega

end WellFormed

------------------------------------------------------------
-- Lead Bytes by Width
------------------------------------------------------------

theorem lead?_one
    {b : UInt8}
    (h : b.toNat ≤ 0x7F) :
    lead? b = some ⟨0, 0x80, 0xBF, b.toNat⟩ := by
  unfold lead?
  rw [if_pos (UInt8.le_iff_toNat_le.mpr h)]

theorem lead?_two
    {b : UInt8}
    (h : 0xC2 ≤ b.toNat ∧ b.toNat ≤ 0xDF) :
    lead? b = some ⟨1, 0x80, 0xBF, b.toNat - 0xC0⟩ := by
  unfold lead?
  simp only [UInt8.le_iff_toNat_le, UInt8.lt_iff_toNat_lt,
    UInt8.reduceToNat]
  rw [if_neg (by omega), if_neg (by omega), if_pos (by omega)]

theorem lead?_three
    {b : UInt8}
    (h : 0xE0 ≤ b.toNat ∧ b.toNat ≤ 0xEF) :
    ∃ low high,
      lead? b = some ⟨2, low, high, b.toNat - 0xE0⟩ ∧
        ∀ x, low ≤ x ∧ x ≤ high ↔
          IsTail x ∧ (b.toNat = 0xE0 → 0xA0 ≤ x.toNat) ∧
            (b.toNat = 0xED → x.toNat ≤ 0x9F) := by
  unfold lead?
  simp only [isTail_iff, UInt8.le_iff_toNat_le,
    UInt8.lt_iff_toNat_lt, ← UInt8.toNat_inj, UInt8.reduceToNat]
  split_ifs with h1 h2 h3 h4 h5 h6
  any_goals omega
  · refine ⟨0xA0, 0xBF, by simp [h4], fun x => ?_⟩
    simp only [UInt8.reduceToNat]
    omega
  · refine ⟨0x80, 0x9F, by simp [h5], fun x => ?_⟩
    simp only [UInt8.reduceToNat]
    omega
  · refine ⟨0x80, 0xBF, rfl, fun x => ?_⟩
    simp only [UInt8.reduceToNat]
    omega

theorem lead?_four
    {b : UInt8}
    (h : 0xF0 ≤ b.toNat ∧ b.toNat ≤ 0xF4) :
    ∃ low high,
      lead? b = some ⟨3, low, high, b.toNat - 0xF0⟩ ∧
        ∀ x, low ≤ x ∧ x ≤ high ↔
          IsTail x ∧ (b.toNat = 0xF0 → 0x90 ≤ x.toNat) ∧
            (b.toNat = 0xF4 → x.toNat ≤ 0x8F) := by
  unfold lead?
  simp only [isTail_iff, UInt8.le_iff_toNat_le,
    UInt8.lt_iff_toNat_lt, ← UInt8.toNat_inj, UInt8.reduceToNat]
  split_ifs with h1 h2 h3 h4 h5 h6 h7 h8 h9
  any_goals omega
  · refine ⟨0x90, 0xBF, by simp [h7], fun x => ?_⟩
    simp only [UInt8.reduceToNat]
    omega
  · refine ⟨0x80, 0xBF, rfl, fun x => ?_⟩
    simp only [UInt8.reduceToNat]
    omega
  · refine ⟨0x80, 0x8F, by simp [h9], fun x => ?_⟩
    simp only [UInt8.reduceToNat]
    omega

/- No other byte leads a character. -/
theorem lead?_cases (b : UInt8) :
    b.toNat ≤ 0x7F ∨
    (0xC2 ≤ b.toNat ∧ b.toNat ≤ 0xDF) ∨
    (0xE0 ≤ b.toNat ∧ b.toNat ≤ 0xEF) ∨
    (0xF0 ≤ b.toNat ∧ b.toNat ≤ 0xF4) ∨
    lead? b = none := by
  unfold lead?
  simp only [UInt8.le_iff_toNat_le, UInt8.lt_iff_toNat_lt,
    ← UInt8.toNat_inj, UInt8.reduceToNat]
  split_ifs <;> simp <;> omega

/- A chunk is a character when its continuation bytes are read. -/
theorem chunkAt_eq_char_of_lead
    {b : UInt8}
    {lead : Lead}
    {s : Bytes}
    {extra : Nat}
    {c : Char}
    (hLead : lead? b = some lead) :
    chunkAt b s = ⟨extra, some c⟩ ↔
      ∃ n, readTails lead.low lead.high lead.bits lead.tails s =
          (extra, some n) ∧ Char.ofNat n = c := by
  unfold chunkAt
  simp [hLead, Prod.ext_iff, and_assoc]

/- A chunk that is a character spans well-formed bytes. -/
theorem wellFormed_of_chunkAt
    {b : UInt8}
    {s : Bytes}
    {extra : Nat}
    {c : Char}
    (h : chunkAt b s = ⟨extra, some c⟩) :
    ∃ tail rest,
      s = tail ++ rest ∧ tail.length = extra ∧
        WellFormed (b :: tail) c.val.toNat := by
  rcases lead?_cases b with hb | hb | hb | hb | hNone
  · rw [chunkAt_eq_char_of_lead (lead?_one hb)] at h
    rcases h with ⟨n, hTails, rfl⟩
    simp only [readTails, Prod.mk.injEq, Option.some.injEq]
      at hTails
    rcases hTails with ⟨rfl, rfl⟩
    have hForm := WellFormed.one hb rfl
    refine ⟨[], s, rfl, rfl, ?_⟩
    rwa [toNat_ofNat hForm.isValidChar]
  · rw [chunkAt_eq_char_of_lead (lead?_two hb)] at h
    rcases h with ⟨n, hTails, rfl⟩
    simp only [readTails_succ_eq_some_iff, readTails,
      Prod.mk.injEq, Option.some.injEq] at hTails
    rcases hTails with
      ⟨x, rest, _, rfl, hx, hx', rfl, rfl, rfl⟩
    have hForm := WellFormed.two hb ⟨hx, hx'⟩ rfl
    refine ⟨[x], rest, rfl, rfl, ?_⟩
    rwa [toNat_ofNat hForm.isValidChar]
  · rcases lead?_three hb with ⟨low, high, hLead, hRange⟩
    rw [chunkAt_eq_char_of_lead hLead] at h
    rcases h with ⟨n, hTails, rfl⟩
    simp only [readTails_succ_eq_some_iff, readTails,
      Prod.mk.injEq, Option.some.injEq] at hTails
    rcases hTails with
      ⟨x, _, _, rfl, hx, hx', rfl,
        y, rest, _, rfl, hy, hy', rfl, rfl, rfl⟩
    rcases (hRange x).mp ⟨hx, hx'⟩ with ⟨hTail, hLow, hHigh⟩
    have hForm :=
      WellFormed.three hb hTail ⟨hy, hy'⟩ hLow hHigh rfl
    refine ⟨[x, y], rest, rfl, rfl, ?_⟩
    rwa [toNat_ofNat hForm.isValidChar]
  · rcases lead?_four hb with ⟨low, high, hLead, hRange⟩
    rw [chunkAt_eq_char_of_lead hLead] at h
    rcases h with ⟨n, hTails, rfl⟩
    simp only [readTails_succ_eq_some_iff, readTails,
      Prod.mk.injEq, Option.some.injEq] at hTails
    rcases hTails with
      ⟨x, _, _, rfl, hx, hx', rfl,
        y, _, _, rfl, hy, hy', rfl,
        z, rest, _, rfl, hz, hz', rfl, rfl, rfl⟩
    rcases (hRange x).mp ⟨hx, hx'⟩ with ⟨hTail, hLow, hHigh⟩
    have hForm :=
      WellFormed.four hb hTail ⟨hy, hy'⟩ ⟨hz, hz'⟩
        hLow hHigh rfl
    refine ⟨[x, y, z], rest, rfl, rfl, ?_⟩
    rwa [toNat_ofNat hForm.isValidChar]
  · simp [chunkAt, hNone] at h

/- Well-formed bytes are one chunk, whatever follows them. -/
theorem chunkAt_of_wellFormed
    {b : UInt8}
    {tail : Bytes}
    {c : Char}
    (h : WellFormed (b :: tail) c.val.toNat)
    (rest : Bytes) :
    chunkAt b (tail ++ rest) = ⟨tail.length, some c⟩ := by
  have hChar : Char.ofNat c.val.toNat = c := Char.ofNat_toNat c
  cases h with
  | one hLead hPoint =>
      rw [chunkAt_eq_char_of_lead (lead?_one hLead)]
      exact ⟨_, rfl, hPoint ▸ hChar⟩
  | two hLead hx hPoint =>
      rw [chunkAt_eq_char_of_lead (lead?_two hLead)]
      refine ⟨_, ?_, hChar⟩
      simp [readTails, hx.1, hx.2, hPoint]
  | three hLead hx hy hLow hHigh hPoint =>
      rcases lead?_three hLead with ⟨low, high, hByte, hRange⟩
      rw [chunkAt_eq_char_of_lead hByte]
      refine ⟨_, ?_, hChar⟩
      have hFits := (hRange _).mpr ⟨hx, hLow, hHigh⟩
      simp [readTails, hFits, hy.1, hy.2, hPoint]
  | four hLead hx hy hz hLow hHigh hPoint =>
      rcases lead?_four hLead with ⟨low, high, hByte, hRange⟩
      rw [chunkAt_eq_char_of_lead hByte]
      refine ⟨_, ?_, hChar⟩
      have hFits := (hRange _).mpr ⟨hx, hLow, hHigh⟩
      simp [readTails, hFits, hy.1, hy.2, hz.1, hz.2, hPoint]

------------------------------------------------------------
-- Decoding and Encoding
------------------------------------------------------------

/- A character has a first byte, and its bytes are well-formed. -/
theorem exists_encodeChar_eq_cons (c : Char) :
    ∃ b tail,
      String.utf8EncodeChar c = b :: tail ∧
        WellFormed (b :: tail) c.val.toNat := by
  have hForm := WellFormed.of_char c
  cases hBytes : String.utf8EncodeChar c with
  | nil => exact absurd hBytes String.utf8EncodeChar_ne_nil
  | cons b tail => exact ⟨b, tail, rfl, hBytes ▸ hForm⟩

/- The bytes of a character are cut off as one chunk. -/
theorem chunks_encodeChar_append
    (c : Char)
    (s : Bytes) :
    ∃ extra,
      chunks (String.utf8EncodeChar c ++ s) =
        ⟨extra, some c⟩ :: chunks s := by
  rcases exists_encodeChar_eq_cons c with
    ⟨b, tail, hBytes, hForm⟩
  refine ⟨tail.length, ?_⟩
  rw [hBytes, List.cons_append, chunks_cons,
    chunkAt_of_wellFormed hForm, List.drop_left]

@[simp] theorem encode_nil : encode [] = [] :=
  rfl

@[simp] theorem encode_cons
    (c : Char)
    (t : List Char) :
    encode (c :: t) = String.utf8EncodeChar c ++ encode t :=
  rfl

@[simp] theorem encode_append
    (t u : List Char) :
    encode (t ++ u) = encode t ++ encode u := by
  simp [encode]

/- Encoded text starts with a well-formed sequence. -/
theorem exists_of_encode_eq_cons
    {text : List Char}
    {b : UInt8}
    {s : Bytes}
    (h : encode text = b :: s) :
    ∃ c rest tail,
      text = c :: rest ∧ s = tail ++ encode rest ∧
        WellFormed (b :: tail) c.val.toNat := by
  cases text with
  | nil => cases h
  | cons c rest =>
      rcases exists_encodeChar_eq_cons c with
        ⟨x, tail, hBytes, hForm⟩
      rw [encode_cons, hBytes, List.cons_append,
        List.cons.injEq] at h
      rcases h with ⟨rfl, rfl⟩
      exact ⟨c, rest, tail, rfl, rfl, hForm⟩

/- Only the empty text has no bytes. -/
theorem encode_eq_nil_iff
    {text : List Char} :
    encode text = [] ↔ text = [] := by
  cases text <;> simp [String.utf8EncodeChar_ne_nil]

/- Lenient decoding reads encoded text back. -/
theorem decodeLenient_encode_append
    (t : List Char)
    (s : Bytes) :
    decodeLenient (encode t ++ s) = t ++ decodeLenient s := by
  induction t with
  | nil => rfl
  | cons c t ih =>
      rcases chunks_encodeChar_append c (encode t ++ s) with
        ⟨extra, hChunks⟩
      unfold decodeLenient at ih ⊢
      rw [encode_cons, List.append_assoc, hChunks,
        List.map_cons, ih]
      rfl

/- Lenient decoding of encoded text alone. -/
theorem decodeLenient_encode (t : List Char) :
    decodeLenient (encode t) = t := by
  simpa [decodeLenient] using decodeLenient_encode_append t []

/- Strict decoding goes on behind a chunk that is a character. -/
theorem decode?_cons
    (b : UInt8)
    (s : Bytes) :
    decode? (b :: s) =
      (chunkAt b s).char?.bind fun c =>
        (decode? (s.drop (chunkAt b s).extra)).map
          fun t => c :: t := by
  unfold decode?
  rw [chunks_cons, List.mapM_cons]
  cases (chunkAt b s).char? with
  | none => rfl
  | some c =>
      rw [Option.bind_some, Option.map_eq_bind]
      rfl

/- Strict decoding reads encoded text back. -/
theorem decode?_encode (t : List Char) :
    decode? (encode t) = some t := by
  induction t with
  | nil => rfl
  | cons c t ih =>
      rcases chunks_encodeChar_append c (encode t) with
        ⟨extra, hChunks⟩
      unfold decode? at ih ⊢
      simp [hChunks, ih]

/- Strict decoding accepts encoded text only. -/
theorem eq_encode_of_decode?
    {s : Bytes}
    {t : List Char}
    (h : decode? s = some t) :
    s = encode t := by
  induction s using chunk_induction generalizing t with
  | nil =>
      cases h
      rfl
  | cons b s ih =>
      rw [decode?_cons] at h
      cases hChunk : chunkAt b s with
      | mk extra char? =>
      simp only [hChunk, Option.bind_eq_some_iff,
        Option.map_eq_some_iff] at h ih
      rcases h with ⟨c, rfl, u, hRest, rfl⟩
      rcases wellFormed_of_chunkAt hChunk with
        ⟨tail, rest, rfl, rfl, hForm⟩
      have hRestBytes := ih hRest
      rw [List.drop_left] at hRestBytes
      rw [encode_cons, hForm.encodeChar_eq, ← hRestBytes]
      rfl

/- Strict decoding and encoding are inverse to each other. -/
theorem decode?_eq_some_iff
    {s : Bytes}
    {t : List Char} :
    decode? s = some t ↔ s = encode t := by
  constructor
  · exact eq_encode_of_decode?
  · rintro rfl
    exact decode?_encode t

end Utf8

end CommentLint
