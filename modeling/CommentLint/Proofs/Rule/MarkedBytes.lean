import CommentLint.Proofs.Rule.MarkedText
import Mathlib.Data.Set.Function

/-
  Markers in bytes.

  The offsets of markers count the bytes of the text alone.
  Put in from the last to the first, at the very offsets that
  were listed, markers in the bytes of a text give the bytes
  of the example: taking markers out loses nothing, and every
  text without markers with offsets that fit comes from one
  example.

  Key definitions include:
    * `MarkedText.insertMarker`
    * `MarkedText.spliced`

  Key results include:
    * `MarkedText.markedFrom_append`
    * `MarkedText.encode_marked`
    * `MarkedText.parse_bijOn`
-/

namespace CommentLint

namespace MarkedText

open Utf8

------------------------------------------------------------
-- Markers at Offsets
------------------------------------------------------------

/- Bytes with a marker put in at an offset. -/
def insertMarker
    (offset : Nat)
    (bytes : Bytes) : Bytes :=
  bytes.take offset ++ (encode [marker] ++ bytes.drop offset)

/-
  The bytes of a text with one marker for each of the offsets.
  The last one is put in first, so that the offsets before it
  still count the bytes of the text alone.
-/
def spliced (m : MarkedText) : Bytes :=
  m.offsets.foldr insertMarker (encode m.text)

/- A marker goes in between the texts before and behind it. -/
theorem insertMarker_encode_append
    (before after : List Char) :
    insertMarker (encode before).length
        (encode (before ++ after)) =
      encode (before ++ marker :: after) := by
  have hText :
      before ++ marker :: after =
        before ++ ([marker] ++ after) :=
    rfl
  unfold insertMarker
  rw [hText, encode_append before after, List.take_left,
    List.drop_left, encode_append before, encode_append]

/- What no marker stands in is kept in front. -/
theorem markedFrom_append
    {n : Nat}
    {offsets : List Nat}
    {before : List Char}
    (hLow : ∀ o ∈ offsets, n + (encode before).length ≤ o)
    (after : List Char) :
    markedFrom n offsets (before ++ after) =
      before ++
        markedFrom (n + (encode before).length) offsets after := by
  induction before generalizing n with
  | nil => rfl
  | cons c before ih =>
      have hPos := c.utf8Size_pos
      have hSize :
          n + (encode (c :: before)).length =
            n + c.utf8Size + (encode before).length := by
        rw [encode_cons, List.length_append,
          String.length_utf8EncodeChar, Nat.add_assoc]
      rw [hSize] at hLow ⊢
      have hNone : n ∉ offsets := by
        intro hMem
        have hLe := hLow n hMem
        omega
      rw [List.cons_append, markedFrom_cons_of_not_mem hNone,
        ih hLow, List.cons_append]

/- A text without offsets has no markers. -/
theorem marked_nil (text : List Char) :
    marked ⟨text, []⟩ = text := by
  have hPlain :
      markedFrom 0 [] (text ++ []) =
        text ++ markedFrom (0 + (encode text).length) [] [] :=
    markedFrom_append (by simp) []
  have hEnd :
      markedFrom (0 + (encode text).length) [] [] = [] :=
    rfl
  rw [hEnd, List.append_nil] at hPlain
  exact hPlain

/- The first of the offsets is where one marker more goes in. -/
theorem encode_marked_cons
    {text : List Char}
    {o : Nat}
    {offsets : List Nat}
    (h : Fits ⟨text, o :: offsets⟩) :
    encode (marked ⟨text, o :: offsets⟩) =
      insertMarker o (encode (marked ⟨text, offsets⟩)) := by
  rcases h.between o List.mem_cons_self with
    ⟨before, after, rfl, rfl⟩
  have hLow :
      ∀ p ∈ offsets, 0 + (encode before).length ≤ p := by
    intro p hMem
    rw [Nat.zero_add]
    exact (List.pairwise_cons.mp h.ordered).1 p hMem
  have hLow' :
      ∀ p ∈ (encode before).length :: offsets,
        0 + (encode before).length ≤ p :=
    List.forall_mem_cons.mpr ⟨by omega, hLow⟩
  unfold marked
  rw [markedFrom_append hLow, markedFrom_append hLow',
    Nat.zero_add, markedFrom_cons_self,
    insertMarker_encode_append]

/- What fits still fits without the first of its offsets. -/
theorem Fits.tail
    {text : List Char}
    {o : Nat}
    {offsets : List Nat}
    (h : Fits ⟨text, o :: offsets⟩) :
    Fits ⟨text, offsets⟩ where
  clean := h.clean
  ordered := (List.pairwise_cons.mp h.ordered).2
  between := fun p hMem =>
    h.between p (List.mem_cons_of_mem o hMem)

/- The bytes of a marked text have its markers at its offsets. -/
theorem encode_marked
    {m : MarkedText}
    (h : m.Fits) :
    encode m.marked = m.spliced := by
  rcases m with ⟨text, offsets⟩
  induction offsets with
  | nil =>
      exact congrArg encode (marked_nil text)
  | cons o offsets ih =>
      rw [encode_marked_cons h, ih h.tail]
      rfl

------------------------------------------------------------
-- One Example for Each Marked Text
------------------------------------------------------------

/-
  Examples and marked texts that fit correspond one to one.
  The example of a marked text is the text whose bytes have a
  marker at each of the offsets.
-/
theorem parse_bijOn :
    Set.BijOn parse Set.univ {m | m.Fits} ∧
      (∀ e, (parse e).spliced = encode e) ∧
        ∀ m : MarkedText, m.Fits →
          encode m.marked = m.spliced ∧ parse m.marked = m := by
  refine ⟨⟨?_, ?_, ?_⟩, ?_, ?_⟩
  · intro e _
    exact fits_parse e
  · intro e _ e' _ hSame
    rw [← marked_parse e, ← marked_parse e', hSame]
  · intro m hFits
    exact ⟨m.marked, trivial, parse_marked hFits⟩
  · intro e
    rw [← encode_marked (fits_parse e), marked_parse]
  · intro m hFits
    exact ⟨encode_marked hFits, parse_marked hFits⟩

/- Markers at the start, between two characters and at the end. -/
def accentMarked : MarkedText :=
  ⟨"é中".toList, [0, 0, 2, 5]⟩

example : accentMarked.marked = "↓↓é↓中↓".toList := by
  decide

/- That text comes from the example with its four markers. -/
theorem parse_bijOn_accentMarked :
    accentMarked.Fits ∧
      encode accentMarked.marked = accentMarked.spliced ∧
        parse accentMarked.marked = accentMarked :=
  have hFits : accentMarked.Fits := by
    have hParsed := fits_parse "↓↓é↓中↓".toList
    exact hParsed
  ⟨hFits, parse_bijOn.2.2 accentMarked hFits⟩

end MarkedText

end CommentLint
