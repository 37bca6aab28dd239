/-
  UTF-8 text as bytes.

  A byte string is cut into chunks.  A chunk is one encoded
  character, or a longest run of bytes that starts an encoded
  character and does not finish it, or a byte that starts
  none.  Strict decoding accepts characters only; lenient
  decoding writes U+FFFD for every other chunk.

  Key definitions include:
    * `Bytes`
    * `Utf8.Lead`
    * `Utf8.Chunk`
    * `Utf8.chunks`
    * `Utf8.decode?`
    * `Utf8.decodeLenient`
    * `Utf8.encode`

  Key results include:
    * `Utf8.chunks_cons`
-/

namespace CommentLint

/- File contents are byte strings of any kind. -/
abbrev Bytes :=
  List UInt8

namespace Utf8

------------------------------------------------------------
-- Lead Bytes
------------------------------------------------------------

/-
  What a lead byte asks for: how many continuation bytes
  follow, the range of the first of them, and the bits that
  the lead byte itself gives to the code point.
-/
structure Lead where
  tails : Nat
  low : UInt8
  high : UInt8
  bits : Nat
deriving DecidableEq, Repr

/-
  The lead bytes of UTF-8.  The narrowed ranges rule out
  overlong forms, surrogates and points past U+10FFFF.
-/
def lead? (b : UInt8) : Option Lead :=
  if b ≤ 0x7F then some ⟨0, 0x80, 0xBF, b.toNat⟩
  else if b < 0xC2 then none
  else if b ≤ 0xDF then some ⟨1, 0x80, 0xBF, b.toNat - 0xC0⟩
  else if b = 0xE0 then some ⟨2, 0xA0, 0xBF, 0⟩
  else if b = 0xED then some ⟨2, 0x80, 0x9F, 0x0D⟩
  else if b ≤ 0xEF then some ⟨2, 0x80, 0xBF, b.toNat - 0xE0⟩
  else if b = 0xF0 then some ⟨3, 0x90, 0xBF, 0⟩
  else if b ≤ 0xF3 then some ⟨3, 0x80, 0xBF, b.toNat - 0xF0⟩
  else if b = 0xF4 then some ⟨3, 0x80, 0x8F, 4⟩
  else none

------------------------------------------------------------
-- Chunks
------------------------------------------------------------

/-
  A chunk spans `extra + 1` bytes and is a character unless
  its bytes are malformed.
-/
structure Chunk where
  extra : Nat
  char? : Option Char
deriving DecidableEq, Repr

/- The number of bytes in a chunk. -/
def Chunk.width (c : Chunk) : Nat :=
  c.extra + 1

/-
  Read the continuation bytes still owed.  The count is of
  the bytes that fit; the code point is there when all do.
-/
def readTails
    (low high : UInt8)
    (code : Nat) :
    Nat → Bytes → Nat × Option Nat
  | 0, _ => (0, some code)
  | _ + 1, [] => (0, none)
  | owed + 1, b :: rest =>
      if low ≤ b ∧ b ≤ high then
        let (taken, point) :=
          readTails 0x80 0xBF
            (code * 64 + (b.toNat - 0x80)) owed rest
        (taken + 1, point)
      else (0, none)

/- The chunk that starts with the given byte. -/
def chunkAt
    (b : UInt8)
    (rest : Bytes) : Chunk :=
  match lead? b with
  | none => ⟨0, none⟩
  | some lead =>
      let (taken, point) :=
        readTails lead.low lead.high lead.bits lead.tails rest
      ⟨taken, point.map Char.ofNat⟩

/-
  Cut bytes into chunks behind those already cut, after
  passing over the bytes that belong to the latest of them.
-/
def chunksOnto
    (done : List Chunk) :
    Nat → Bytes → List Chunk
  | _, [] => done.reverse
  | owed + 1, _ :: rest => chunksOnto done owed rest
  | 0, b :: rest =>
      let chunk := chunkAt b rest
      chunksOnto (chunk :: done) chunk.extra rest

/- Cut bytes into chunks. -/
def chunks (data : Bytes) : List Chunk :=
  chunksOnto [] 0 data

/- Chunks already cut stand before the chunks of the rest. -/
theorem chunksOnto_eq
    (done : List Chunk)
    (owed : Nat)
    (data : Bytes) :
    chunksOnto done owed data =
      done.reverse ++ chunks (data.drop owed) := by
  induction data generalizing done owed with
  | nil => cases owed <;> simp [chunksOnto, chunks]
  | cons b rest ih =>
      cases owed with
      | succ n => simp [chunksOnto, ih]
      | zero =>
          have hFirst :
              chunks (b :: rest) =
                chunksOnto [chunkAt b rest]
                  (chunkAt b rest).extra rest := rfl
          rw [chunksOnto, ih, List.drop_zero, hFirst, ih]
          simp

/- No bytes make no chunks. -/
@[simp] theorem chunks_nil : chunks [] = [] :=
  rfl

/- The first chunk is followed by the chunks of what it leaves. -/
theorem chunks_cons
    (b : UInt8)
    (rest : Bytes) :
    chunks (b :: rest) =
      chunkAt b rest ::
        chunks (rest.drop (chunkAt b rest).extra) := by
  rw [chunks, chunksOnto, chunksOnto_eq]
  simp

------------------------------------------------------------
-- Decoding and Encoding
------------------------------------------------------------

/- The text of a byte string that is UTF-8 throughout. -/
def decode? (data : Bytes) : Option (List Char) :=
  (chunks data).mapM Chunk.char?

/- The character that stands for malformed bytes. -/
def replacement : Char :=
  '\uFFFD'

/- The text of any byte string, one U+FFFD per malformed chunk. -/
def decodeLenient (data : Bytes) : List Char :=
  (chunks data).map fun c => c.char?.getD replacement

/- The UTF-8 bytes of a text. -/
def encode (text : List Char) : Bytes :=
  text.flatMap String.utf8EncodeChar

/- The UTF-8 bytes of a string. -/
def encodeString (text : String) : Bytes :=
  encode text.toList

/- The number of bytes in the UTF-8 form of a text. -/
def size (text : List Char) : Nat :=
  text.foldr (fun c n => c.utf8Size + n) 0

end Utf8

end CommentLint
