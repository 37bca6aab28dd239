import CommentLint.Proofs.Utf8.Boundary
import CommentLint.Rule.Example

/-
  Markers in text.

  An example is a text with markers in it.  Taking them out
  gives the text and the byte offsets that they stood at, and
  putting one back at each offset gives the example: the two
  are inverse, for a text without markers and offsets in
  order that lie between its characters.

  Key definitions include:
    * `MarkedText.marked`
    * `MarkedText.Fits`

  Key results include:
    * `MarkedText.fits_parse`
    * `MarkedText.marked_parse`
    * `MarkedText.parse_marked`
    * `MarkedText.parse_eq_iff`
-/

namespace CommentLint

------------------------------------------------------------
-- Boundaries behind a Character
------------------------------------------------------------

namespace Utf8

variable {c : Char}
variable {text : List Char}

/- A boundary of a text is one behind a character before it. -/
theorem IsBoundary.cons
    {n : Nat}
    (h : IsBoundary text n) :
    IsBoundary (c :: text) (c.utf8Size + n) := by
  rcases h with ⟨before, after, rfl, rfl⟩
  refine ⟨c :: before, after, rfl, ?_⟩
  rw [encode_cons, List.length_append,
    String.length_utf8EncodeChar]

/- A boundary lies at the start or behind the first character. -/
theorem IsBoundary.cons_cases
    {n : Nat}
    (h : IsBoundary (c :: text) n) :
    n = 0 ∨ ∃ m, n = c.utf8Size + m ∧ IsBoundary text m := by
  rcases h with ⟨before, after, hText, rfl⟩
  cases before with
  | nil => exact Or.inl rfl
  | cons d before =>
      rw [List.cons_append] at hText
      rcases List.cons.inj hText with ⟨rfl, rfl⟩
      refine Or.inr ⟨_, ?_, before, after, rfl, rfl⟩
      rw [encode_cons, List.length_append,
        String.length_utf8EncodeChar]

/- There is one boundary of no text. -/
theorem IsBoundary.eq_zero
    {n : Nat}
    (h : IsBoundary [] n) :
    n = 0 :=
  Nat.le_zero.mp h.le_length

end Utf8

namespace MarkedText

open Utf8

------------------------------------------------------------
-- Putting Markers In
------------------------------------------------------------

/- One marker for each of the offsets that is `n`. -/
def markersAt
    (n : Nat)
    (offsets : List Nat) : List Char :=
  List.replicate (offsets.count n) marker

/-
  A text with a marker at each of the offsets, when `n` bytes
  stand before it.
-/
def markedFrom
    (n : Nat)
    (offsets : List Nat) :
    List Char → List Char
  | [] => markersAt n offsets
  | c :: text =>
      markersAt n offsets ++
        c :: markedFrom (n + c.utf8Size) offsets text

/- A text with a marker at each of its offsets. -/
def marked (m : MarkedText) : List Char :=
  markedFrom 0 m.offsets m.text

/-
  A text without markers, with offsets in order that lie
  between its characters; `n` bytes stand before it.
-/
structure FitsFrom
    (n : Nat)
    (m : MarkedText) : Prop where
  clean : marker ∉ m.text
  ordered : m.offsets.Pairwise (· ≤ ·)
  between :
    ∀ o ∈ m.offsets, ∃ k, o = n + k ∧ IsBoundary m.text k

/- A text without markers and offsets that can be marked in it. -/
structure Fits (m : MarkedText) : Prop where
  clean : marker ∉ m.text
  ordered : m.offsets.Pairwise (· ≤ ·)
  between : ∀ o ∈ m.offsets, IsBoundary m.text o

/- What fits, fits behind no bytes. -/
theorem fitsFrom_zero_iff {m : MarkedText} :
    FitsFrom 0 m ↔ m.Fits := by
  constructor
  · rintro ⟨hClean, hOrdered, hBetween⟩
    refine ⟨hClean, hOrdered, ?_⟩
    intro o hMem
    rcases hBetween o hMem with ⟨k, rfl, hk⟩
    rwa [Nat.zero_add]
  · rintro ⟨hClean, hOrdered, hBetween⟩
    exact
      ⟨hClean, hOrdered,
        fun o hMem =>
          ⟨o, (Nat.zero_add o).symm, hBetween o hMem⟩⟩

section Marking

variable {n : Nat}
variable {offsets other : List Nat}

/- Marking depends on how often offsets from the text on occur. -/
theorem markedFrom_congr
    (hCount :
      ∀ m, n ≤ m → offsets.count m = other.count m)
    (text : List Char) :
    markedFrom n offsets text = markedFrom n other text := by
  induction text generalizing n with
  | nil =>
      unfold markedFrom markersAt
      rw [hCount n (Nat.le_refl n)]
  | cons c text ih =>
      unfold markedFrom markersAt
      rw [hCount n (Nat.le_refl n),
        ih (fun m hLe => hCount m (by omega))]

/- A marker at the start stands in front. -/
theorem markedFrom_cons_self
    (text : List Char) :
    markedFrom n (n :: offsets) text =
      marker :: markedFrom n offsets text := by
  have hMarkers :
      markersAt n (n :: offsets) =
        marker :: markersAt n offsets := by
    unfold markersAt
    rw [List.count_cons_self, List.replicate_succ]
  cases text with
  | nil => exact hMarkers
  | cons c text =>
      have hPos := c.utf8Size_pos
      have hCount :
          ∀ m, n + c.utf8Size ≤ m →
            (n :: offsets).count m = offsets.count m := by
        intro m hLe
        exact List.count_cons_of_ne (by omega)
      rw [markedFrom, markedFrom, hMarkers,
        markedFrom_congr hCount]
      rfl

/- A text that no marker stands before keeps its first character. -/
theorem markedFrom_cons_of_not_mem
    (h : n ∉ offsets)
    (c : Char)
    (text : List Char) :
    markedFrom n offsets (c :: text) =
      c :: markedFrom (n + c.utf8Size) offsets text := by
  rw [markedFrom, markersAt, List.count_eq_zero.mpr h]
  rfl

end Marking

------------------------------------------------------------
-- Taking Markers Out
------------------------------------------------------------

/- Take the markers out of an example behind `n` bytes. -/
def parseFrom
    (n : Nat)
    (e : List Char) : MarkedText :=
  ⟨(e.splitOn marker).flatten, offsetsFrom n (e.splitOn marker)⟩

/- An example that is empty marks nothing. -/
theorem parseFrom_nil (n : Nat) :
    parseFrom n [] = ⟨[], []⟩ := by
  simp [parseFrom, offsetsFrom]

/- A marker in front marks the offset at which it stands. -/
theorem parseFrom_marker
    (n : Nat)
    (e : List Char) :
    parseFrom n (marker :: e) =
      ⟨(parseFrom n e).text, n :: (parseFrom n e).offsets⟩ := by
  unfold parseFrom
  rw [List.splitOn_cons_eq_if_modifyHead]
  cases hPieces : e.splitOn marker with
  | nil => exact absurd hPieces (List.splitOn_ne_nil _ _)
  | cons piece rest => simp [offsetsFrom, size]

/- Any other character belongs to the text. -/
theorem parseFrom_cons
    {c : Char}
    (h : c ≠ marker)
    (n : Nat)
    (e : List Char) :
    parseFrom n (c :: e) =
      ⟨c :: (parseFrom (n + c.utf8Size) e).text,
        (parseFrom (n + c.utf8Size) e).offsets⟩ := by
  unfold parseFrom
  rw [List.splitOn_cons_eq_if_modifyHead]
  cases hPieces : e.splitOn marker with
  | nil => exact absurd hPieces (List.splitOn_ne_nil _ _)
  | cons piece rest =>
      cases rest with
      | nil => simp [offsetsFrom, h]
      | cons next rest =>
          have hNext :
              n + size (c :: piece) =
                n + c.utf8Size + size piece := by
            rw [Nat.add_assoc]
            rfl
          simp [offsetsFrom, h, hNext]

/- Markers in front mark the same offset. -/
theorem parseFrom_replicate_append
    (k n : Nat)
    (e : List Char) :
    parseFrom n (List.replicate k marker ++ e) =
      ⟨(parseFrom n e).text,
        List.replicate k n ++ (parseFrom n e).offsets⟩ := by
  induction k with
  | zero => rfl
  | succ k ih =>
      rw [List.replicate_succ, List.cons_append,
        parseFrom_marker, ih, List.replicate_succ]
      rfl

------------------------------------------------------------
-- There and Back
------------------------------------------------------------

/- What is taken out of an example fits. -/
theorem fitsFrom_parseFrom
    (n : Nat)
    (e : List Char) :
    FitsFrom n (parseFrom n e) := by
  induction e generalizing n with
  | nil =>
      rw [parseFrom_nil]
      exact ⟨by simp, List.Pairwise.nil, by simp⟩
  | cons c e ih =>
      by_cases hMarker : c = marker
      · subst hMarker
        rcases ih n with ⟨hClean, hOrdered, hBetween⟩
        rw [parseFrom_marker]
        refine ⟨hClean, List.pairwise_cons.mpr ⟨?_, hOrdered⟩, ?_⟩
        · intro o hMem
          rcases hBetween o hMem with ⟨k, rfl, _⟩
          exact Nat.le_add_right n k
        · intro o hMem
          rcases List.mem_cons.mp hMem with rfl | hLater
          · exact ⟨0, rfl, isBoundary_zero _⟩
          · exact hBetween o hLater
      · rcases ih (n + c.utf8Size) with
          ⟨hClean, hOrdered, hBetween⟩
        rw [parseFrom_cons hMarker]
        refine ⟨?_, hOrdered, ?_⟩
        · rw [List.mem_cons]
          rintro (hSame | hMem)
          · exact hMarker hSame.symm
          · exact hClean hMem
        · intro o hMem
          rcases hBetween o hMem with ⟨k, rfl, hk⟩
          exact ⟨c.utf8Size + k, Nat.add_assoc _ _ _, hk.cons⟩

/- Markers that are taken out and put back give the example. -/
theorem markedFrom_parseFrom
    (n : Nat)
    (e : List Char) :
    markedFrom n (parseFrom n e).offsets (parseFrom n e).text =
      e := by
  induction e generalizing n with
  | nil =>
      rw [parseFrom_nil]
      rfl
  | cons c e ih =>
      by_cases hMarker : c = marker
      · subst hMarker
        rw [parseFrom_marker, markedFrom_cons_self, ih]
      · have hFits := fitsFrom_parseFrom (n + c.utf8Size) e
        have hNone :
            n ∉ (parseFrom (n + c.utf8Size) e).offsets := by
          intro hMem
          have hPos := c.utf8Size_pos
          rcases hFits.between n hMem with ⟨k, hk, _⟩
          omega
        rw [parseFrom_cons hMarker,
          markedFrom_cons_of_not_mem hNone, ih]

/- Offsets in order are those at the start and those behind it. -/
theorem exists_eq_replicate_append
    {n : Nat}
    {offsets : List Nat}
    (hOrdered : offsets.Pairwise (· ≤ ·))
    (hLow : ∀ o ∈ offsets, n ≤ o) :
    ∃ later,
      offsets = List.replicate (offsets.count n) n ++ later ∧
        ∀ o ∈ later, n < o := by
  induction offsets with
  | nil => exact ⟨[], rfl, by simp⟩
  | cons o offsets ih =>
      rcases List.pairwise_cons.mp hOrdered with ⟨hFirst, hRest⟩
      rcases Nat.eq_or_lt_of_le (hLow o List.mem_cons_self) with
        rfl | hLt
      · rcases ih hRest
            (fun p hMem => hLow p (List.mem_cons_of_mem _ hMem))
          with ⟨later, hOffsets, hLater⟩
        refine ⟨later, ?_, hLater⟩
        rw [List.count_cons_self, List.replicate_succ,
          List.cons_append, ← hOffsets]
      · have hBehind : ∀ p ∈ o :: offsets, n < p := by
          intro p hMem
          rcases List.mem_cons.mp hMem with rfl | hLater
          · exact hLt
          · exact Nat.lt_of_lt_of_le hLt (hFirst p hLater)
        refine ⟨o :: offsets, ?_, hBehind⟩
        rw [List.count_eq_zero.mpr
          (fun hMem => Nat.lt_irrefl n (hBehind n hMem))]
        rfl

/-
  Markers that are put in and taken out give the text and the
  offsets.  The induction is on the text: the offsets at its
  start come first, and the others fit behind its first
  character.
-/
theorem parseFrom_markedFrom
    {n : Nat}
    {offsets : List Nat}
    {text : List Char}
    (h : FitsFrom n ⟨text, offsets⟩) :
    parseFrom n (markedFrom n offsets text) =
      ⟨text, offsets⟩ := by
  induction text generalizing n offsets with
  | nil =>
      have hAll : ∀ o ∈ offsets, o = n := by
        intro o hMem
        rcases h.between o hMem with ⟨k, rfl, hk⟩
        rw [hk.eq_zero, Nat.add_zero]
      have hOffsets :
          offsets = List.replicate (offsets.count n) n := by
        rw [List.count_eq_length.mpr
          (fun o hMem => (hAll o hMem).symm)]
        exact List.eq_replicate_of_mem hAll
      have hParsed :=
        parseFrom_replicate_append (offsets.count n) n []
      rw [List.append_nil, parseFrom_nil, List.append_nil,
        ← hOffsets] at hParsed
      exact hParsed
  | cons c text ih =>
      have hPos := c.utf8Size_pos
      have hOrdered : offsets.Pairwise (· ≤ ·) := h.ordered
      have hLow : ∀ o ∈ offsets, n ≤ o := by
        intro o hMem
        rcases h.between o hMem with ⟨k, rfl, _⟩
        exact Nat.le_add_right n k
      rcases exists_eq_replicate_append hOrdered hLow with
        ⟨later, hOffsets, hLater⟩
      have hClean : marker ≠ c ∧ marker ∉ text := by
        simpa using h.clean
      rw [hOffsets, List.pairwise_append] at hOrdered
      have hFits : FitsFrom (n + c.utf8Size) ⟨text, later⟩ := by
        refine ⟨hClean.2, hOrdered.2.1, ?_⟩
        intro o hMem
        have hIn : o ∈ offsets := by
          rw [hOffsets]
          exact List.mem_append_right _ hMem
        rcases h.between o hIn with ⟨k, rfl, hk⟩
        rcases hk.cons_cases with rfl | ⟨m, rfl, hm⟩
        · exact absurd (hLater _ hMem) (Nat.lt_irrefl n)
        · exact ⟨m, (Nat.add_assoc _ _ _).symm, hm⟩
      have hCount :
          ∀ m, n + c.utf8Size ≤ m →
            offsets.count m = later.count m := by
        intro m hLe
        rw [hOffsets, List.count_append, List.count_replicate,
          if_neg (by simp; omega), Nat.zero_add]
      rw [markedFrom, markersAt, markedFrom_congr hCount,
        parseFrom_replicate_append,
        parseFrom_cons (Ne.symm hClean.1), ih hFits, ← hOffsets]

/- An example gives a text and offsets that fit. -/
theorem fits_parse (e : List Char) :
    (parse e).Fits :=
  fitsFrom_zero_iff.mp (fitsFrom_parseFrom 0 e)

/- Taking markers out of an example can be undone. -/
theorem marked_parse (e : List Char) :
    (parse e).marked = e :=
  markedFrom_parseFrom 0 e

/- Putting markers into a text can be undone. -/
theorem parse_marked
    {m : MarkedText}
    (h : m.Fits) :
    parse m.marked = m :=
  parseFrom_markedFrom (fitsFrom_zero_iff.mpr h)

/- One example gives a text and offsets that fit. -/
theorem parse_eq_iff
    {m : MarkedText}
    {e : List Char}
    (h : m.Fits) :
    parse e = m ↔ e = m.marked := by
  constructor
  · rintro rfl
    exact (marked_parse e).symm
  · rintro rfl
    exact parse_marked h

end MarkedText

end CommentLint
