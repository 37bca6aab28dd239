import CommentLint.Proofs.Utf8.Boundary
import CommentLint.Source

/-
  Lines of bytes and lines of text.

  Lenient decoding keeps line feeds and makes none, so that
  the lines of the text are the lines of the bytes, decoded.

  Key definitions include:
    * `SourceFile.textLines`
    * `SourceFile.firstLine`
    * `SourceFile.lastLine`

  Key results include:
    * `Utf8.splitOn_decodeLenient`
    * `SourceFile.textLines_getElem?`
-/

namespace CommentLint

------------------------------------------------------------
-- Line Feeds in Decoded Text
------------------------------------------------------------

namespace Utf8

open Ascii

/- The bytes of a line feed. -/
theorem encodeChar_lineFeed :
    String.utf8EncodeChar '\n' = [lineFeed] := by
  decide

/- Only a line feed holds the byte of one. -/
theorem lineFeed_not_mem_encodeChar
    {c : Char}
    (h : c ≠ '\n') :
    lineFeed ∉ String.utf8EncodeChar c := by
  intro hMem
  rcases exists_encodeChar_eq_cons c with
    ⟨b, tail, hBytes, hForm⟩
  rw [hBytes] at hMem
  rcases List.mem_cons.mp hMem with rfl | hTail
  · have hSame : encode [c] = encode ['\n'] := by
      simp [hBytes, hForm.tail_eq_nil (by decide),
        encodeChar_lineFeed]
    have hText := congrArg decode? hSame
    simp only [decode?_encode] at hText
    exact h (by simpa using hText)
  · exact absurd (hForm.tails.2 _ hTail) (by decide)

/- Decoding makes no line feed. -/
theorem not_mem_decodeLenient
    {s : Bytes}
    (h : lineFeed ∉ s) :
    '\n' ∉ decodeLenient s := by
  intro hMem
  rcases mem_decodeLenient hMem with hEq | hInfix
  · exact absurd hEq (by decide)
  · rw [encodeChar_lineFeed] at hInfix
    exact h (hInfix.subset (by simp))

/- Decoding keeps a line feed. -/
theorem decodeLenient_append_lineFeed
    (a s : Bytes) :
    decodeLenient (a ++ lineFeed :: s) =
      decodeLenient a ++ '\n' :: decodeLenient s := by
  rw [decodeLenient_append a (isFresh_cons (by decide) s)]
  congr 1
  exact decodeLenient_encode_append ['\n'] s

/- Decoding commutes with the split into lines. -/
theorem splitOn_decodeLenient (s : Bytes) :
    (decodeLenient s).splitOn '\n' =
      (s.splitOn lineFeed).map decodeLenient := by
  induction hLength : s.length using Nat.strongRecOn
    generalizing s with
  | ind n ih =>
      by_cases hMem : lineFeed ∈ s
      · rcases List.append_of_mem hMem with ⟨a, rest, rfl⟩
        rw [decodeLenient_append_lineFeed,
          List.splitOn_append_cons_self,
          List.splitOn_append_cons_self, List.map_append,
          ih a.length (by simp [← hLength]) a rfl,
          ih rest.length (by simp [← hLength]; omega) rest rfl]
      · rw [List.splitOn_eq_singleton hMem,
          List.splitOn_eq_singleton (not_mem_decodeLenient hMem)]
        rfl

end Utf8

------------------------------------------------------------
-- Lines of Bytes
------------------------------------------------------------

namespace SourceFile

open Ascii

/- The lines of the text that lenient decoding reads. -/
def textLines (f : SourceFile) : List (List Char) :=
  (Utf8.decodeLenient f.data).splitOn '\n'

/- The bytes after the last line feed. -/
def lastLine (data : Bytes) : Bytes :=
  (data.reverse.takeWhile (· != lineFeed)).reverse

/- The bytes before the first line feed. -/
def firstLine (data : Bytes) : Bytes :=
  data.takeWhile (· != lineFeed)

/- Bytes without a line feed pass the test of every line. -/
theorem ne_lineFeed_of_not_mem
    {a : Bytes}
    (h : lineFeed ∉ a) :
    ∀ b ∈ a, (b != lineFeed) = true := by
  intro b hb
  rw [bne_iff_ne]
  rintro rfl
  exact h hb

/- The first line grows by bytes that hold no line feed. -/
theorem firstLine_append
    {a : Bytes}
    (h : lineFeed ∉ a)
    (s : Bytes) :
    firstLine (a ++ s) = a ++ firstLine s :=
  List.takeWhile_append_of_pos (ne_lineFeed_of_not_mem h)

/- The last line grows by bytes that hold no line feed. -/
theorem lastLine_append
    (a : Bytes)
    {s : Bytes}
    (h : lineFeed ∉ s) :
    lastLine (a ++ s) = lastLine a ++ s := by
  have hReverse : lineFeed ∉ s.reverse := by
    rwa [List.mem_reverse]
  unfold lastLine
  rw [List.reverse_append,
    List.takeWhile_append_of_pos
      (ne_lineFeed_of_not_mem hReverse),
    List.reverse_append, List.reverse_reverse]

/- A last line starts behind a line feed. -/
theorem lastLine_append_lineFeed (a : Bytes) :
    lastLine (a ++ [lineFeed]) = [] := by
  simp [lastLine]

/- The last line is all there is, or it follows a line feed. -/
theorem lastLine_cases (a : Bytes) :
    lineFeed ∉ lastLine a ∧
      (a = lastLine a ∨
        ∃ p, a = p ++ lineFeed :: lastLine a) := by
  by_cases hMem : lineFeed ∈ a.reverse
  · rcases List.eq_append_cons_of_mem hMem with
      ⟨q, p, hReverse, hNot⟩
    have hSplit : a = p.reverse ++ [lineFeed] ++ q.reverse := by
      simpa using congrArg List.reverse hReverse
    have hNot' : lineFeed ∉ q.reverse := by
      rwa [List.mem_reverse]
    have hLast : lastLine a = q.reverse := by
      rw [hSplit, lastLine_append _ hNot',
        lastLine_append_lineFeed, List.nil_append]
    rw [hLast]
    exact ⟨hNot', Or.inr ⟨p.reverse, by simpa using hSplit⟩⟩
  · rw [List.mem_reverse] at hMem
    have hLast : lastLine a = a := by
      simpa [lastLine] using lastLine_append [] hMem
    rw [hLast]
    exact ⟨hMem, Or.inl rfl⟩

/- There is one more line than there are line feeds. -/
theorem length_splitOn_lineFeed (a : Bytes) :
    (a.splitOn lineFeed).length = a.count lineFeed + 1 := by
  induction a with
  | nil => rfl
  | cons b a ih =>
      rw [List.splitOn_cons_eq_if_modifyHead]
      by_cases hb : b = lineFeed <;> simp [hb, ih]

/- The first of the lines. -/
theorem splitOn_getElem?_zero (s : Bytes) :
    (s.splitOn lineFeed)[0]? = some (firstLine s) := by
  by_cases hMem : lineFeed ∈ s
  · rcases List.eq_append_cons_of_mem hMem with
      ⟨a, rest, rfl, hNot⟩
    rw [List.splitOn_append_cons_self_of_not_mem hNot,
      firstLine_append hNot]
    simp [firstLine]
  · rw [List.splitOn_eq_singleton hMem]
    simpa [firstLine] using (firstLine_append hMem []).symm

/-
  The line that a place lies in is found by counting the
  line feeds before the place.
-/
theorem splitOn_getElem?_count (a s : Bytes) :
    ((a ++ s).splitOn lineFeed)[a.count lineFeed]? =
      some (lastLine a ++ firstLine s) := by
  rcases lastLine_cases a with ⟨hNot, hAll | ⟨p, hSplit⟩⟩
  · rw [← firstLine_append hNot, ← hAll,
      List.count_eq_zero.mpr (hAll ▸ hNot),
      splitOn_getElem?_zero]
  · have hLines :
        (a ++ s).splitOn lineFeed =
          p.splitOn lineFeed ++
            (lastLine a ++ s).splitOn lineFeed := by
      conv => lhs; rw [hSplit]
      rw [List.append_assoc, List.cons_append,
        List.splitOn_append_cons_self]
    have hCount :
        a.count lineFeed = (p.splitOn lineFeed).length := by
      conv => lhs; rw [hSplit]
      rw [List.count_append, List.count_cons_self,
        List.count_eq_zero.mpr hNot, length_splitOn_lineFeed]
    rw [hLines, hCount, List.getElem?_append_right (by omega),
      Nat.sub_self, splitOn_getElem?_zero, firstLine_append hNot]

/-
  The text of the line that a place lies in splits at the
  place, when no character runs on behind it.
-/
theorem textLines_getElem?
    {f : SourceFile}
    {a s : Bytes}
    (hData : f.data = a ++ s)
    (hFresh : Utf8.IsFresh s) :
    f.textLines[a.count lineFeed]? =
      some (Utf8.decodeLenient (lastLine a) ++
        Utf8.decodeLenient (firstLine s)) := by
  have hFirst : Utf8.IsFresh (firstLine s) := by
    unfold firstLine
    cases s with
    | nil => exact hFresh
    | cons b s =>
        rw [List.takeWhile_cons]
        split
        · exact hFresh
        · exact Utf8.isFresh_nil
  unfold textLines
  rw [hData, Utf8.splitOn_decodeLenient, List.getElem?_map,
    splitOn_getElem?_count, Option.map_some,
    Utf8.decodeLenient_append _ hFirst]

/- A location names the offset that it was asked for. -/
@[simp] theorem location_offset
    (f : SourceFile)
    (offset : Int) :
    (f.location offset).offset = offset :=
  rfl

/- A location names the path of its file. -/
@[simp] theorem location_path
    (f : SourceFile)
    (offset : Int) :
    (f.location offset).path = f.path :=
  rfl

end SourceFile

end CommentLint
