import CommentLint.Proofs.Source.Lines
import Mathlib.Data.List.GetD

/-
  Locations of offsets.

  The line of an offset is found by halving the list of line
  starts; it is one more than the line feeds before the
  offset.  Columns never shrink as a line goes on, also where
  it is cut inside a character or holds malformed bytes, so
  that a later offset is never put before an earlier one.  In
  valid text two boundaries of characters are never put at
  one place.

  Key definitions include:
    * `Location.NotBehind`

  Key results include:
    * `SourceFile.startsUpTo_append`
    * `SourceFile.location_natCast`
    * `Utf8.length_decodeLenient_append_le`
    * `SourceFile.location_orders_offsets`
-/

namespace CommentLint

open Ascii

namespace SourceFile

------------------------------------------------------------
-- Line Starts
------------------------------------------------------------

variable {a s : Bytes}
variable {starts behind : List Nat}

/- The starts found already come first. -/
theorem startsOnto_eq
    (found : List Nat)
    (offset : Nat)
    (s : Bytes) :
    startsOnto found offset s =
      found.reverse ++ startsOnto [] offset s := by
  induction s generalizing found offset with
  | nil => simp [startsOnto]
  | cons b s ih =>
      unfold startsOnto
      split
      · rw [ih ((offset + 1) :: found), ih [offset + 1]]
        simp
      · exact ih found _

/- The lines of bytes in a row start one behind another. -/
theorem startsOnto_append
    (found : List Nat)
    (offset : Nat)
    (a s : Bytes) :
    startsOnto found offset (a ++ s) =
      startsOnto found offset a ++
        startsOnto [] (offset + a.length) s := by
  induction a generalizing found offset with
  | nil => exact startsOnto_eq found offset s
  | cons b a ih =>
      have hNext :
          offset + (b :: a).length = offset + 1 + a.length := by
        rw [List.length_cons]
        omega
      rw [List.cons_append, hNext, startsOnto, startsOnto]
      split <;> exact ih _ _

/- A line starts behind each line feed. -/
theorem length_startsOnto
    (offset : Nat)
    (s : Bytes) :
    (startsOnto [] offset s).length = s.count lineFeed := by
  induction s generalizing offset with
  | nil => rfl
  | cons b s ih =>
      unfold startsOnto
      split
      · rename_i hFeed
        rw [startsOnto_eq, hFeed, List.count_cons_self,
          List.length_append, ih]
        exact Nat.add_comm 1 _
      · rename_i hFeed
        rw [ih, List.count_cons_of_ne hFeed]

/- Every start found in bytes lies behind one of them. -/
theorem mem_startsOnto
    {offset start : Nat}
    (h : start ∈ startsOnto [] offset s) :
    offset < start ∧ start ≤ offset + s.length := by
  induction s generalizing offset with
  | nil => cases h
  | cons b s ih =>
      rw [List.length_cons]
      unfold startsOnto at h
      split at h
      · rw [startsOnto_eq] at h
        rcases List.mem_append.mp h with hFirst | hLater
        · rw [List.mem_reverse, List.mem_singleton] at hFirst
          omega
        · have hIn := ih hLater
          omega
      · have hIn := ih h
        omega

/- Bytes without a line feed start no line. -/
theorem startsOnto_eq_nil
    (h : lineFeed ∉ s)
    (offset : Nat) :
    startsOnto [] offset s = [] := by
  rw [← List.length_eq_zero_iff, length_startsOnto]
  exact List.count_eq_zero.mpr h

/- The lines of a file start in the bytes before and behind. -/
theorem lineStarts_append
    (a s : Bytes) :
    lineStarts (a ++ s) =
      lineStarts a ++ startsOnto [] a.length s := by
  unfold lineStarts
  rw [startsOnto_append, Nat.zero_add]

/- There is one more line than there are line feeds. -/
theorem length_lineStarts (a : Bytes) :
    (lineStarts a).length = a.count lineFeed + 1 := by
  unfold lineStarts
  rw [startsOnto_eq, List.length_append, length_startsOnto,
    Nat.add_comm]
  rfl

/- No line starts past the end. -/
theorem le_of_mem_lineStarts
    {start : Nat}
    (h : start ∈ lineStarts a) :
    start ≤ a.length := by
  unfold lineStarts at h
  rw [startsOnto_eq] at h
  rcases List.mem_append.mp h with hFirst | hLater
  · rw [List.mem_reverse, List.mem_singleton] at hFirst
    omega
  · have hIn := mem_startsOnto hLater
    omega

/- The last of the starts is the one of the last line. -/
theorem lineStarts_eq_append
    (a : Bytes) :
    ∃ before start,
      lineStarts a = before ++ [start] ∧
        a.drop start = lastLine a := by
  rcases lastLine_cases a with ⟨hNot, hAll | ⟨p, hSplit⟩⟩
  · refine ⟨[], 0, ?_, hAll⟩
    unfold lineStarts
    rw [hAll, startsOnto_eq, startsOnto_eq_nil hNot]
    rfl
  · have hStarts :
        lineStarts a = lineStarts p ++ [p.length + 1] := by
      rw [hSplit, lineStarts_append]
      unfold startsOnto
      rw [if_pos rfl, startsOnto_eq, startsOnto_eq_nil hNot]
      rfl
    refine ⟨lineStarts p, p.length + 1, hStarts, ?_⟩
    have hDrop :
        (p ++ lineFeed :: lastLine a).drop (p.length + 1) =
          lastLine a := by
      rw [List.drop_length_add_append]
      rfl
    rwa [← hSplit] at hDrop

------------------------------------------------------------
-- Bisection
------------------------------------------------------------

/-
  Halving keeps the border between the starts up to an offset
  and those past it in the range.
-/
theorem bisect_append
    {offset : Int}
    (hUpTo : ∀ start ∈ starts, (start : Int) ≤ offset)
    (hPast : ∀ start ∈ behind, offset < (start : Int))
    {steps low high : Nat}
    (hLow : low ≤ starts.length)
    (hHigh : starts.length ≤ high)
    (hIn : high ≤ (starts ++ behind).length)
    (hSteps : high ≤ low + steps) :
    bisect (starts ++ behind) offset steps low high =
      starts.length := by
  induction steps generalizing low high with
  | zero =>
      unfold bisect
      omega
  | succ steps ih =>
      unfold bisect
      split
      · rename_i hRange
        dsimp only
        split
        · rename_i hMiddle
          apply ih hLow _ (by omega) (by omega)
          -- A start up to the offset is none past it.
          by_contra hInside
          have hMem :
              (starts ++ behind).getD ((low + high) / 2) 0 ∈
                starts := by
            rw [List.getD_eq_getElem _ _ (by omega),
              List.getElem_append_left (by omega)]
            exact List.getElem_mem _
          have hLe := hUpTo _ hMem
          omega
        · rename_i hMiddle
          apply ih _ hHigh hIn (by omega)
          by_contra hInside
          have hMem :
              (starts ++ behind).getD ((low + high) / 2) 0 ∈
                behind := by
            rw [List.getD_eq_getElem _ _ (by omega),
              List.getElem_append_right (by omega)]
            exact List.getElem_mem _
          exact hMiddle (hPast _ hMem)
      · omega

/- Bisection counts the starts up to an offset. -/
theorem startsUpTo_append
    {offset : Int}
    (hUpTo : ∀ start ∈ starts, (start : Int) ≤ offset)
    (hPast : ∀ start ∈ behind, offset < (start : Int)) :
    startsUpTo (starts ++ behind) offset = starts.length := by
  apply bisect_append hUpTo hPast (Nat.zero_le _) _
    (Nat.le_refl _) (by omega)
  rw [List.length_append]
  omega

------------------------------------------------------------
-- Lines and Columns of Offsets
------------------------------------------------------------

/-
  The line of an offset follows the line feeds before it, and
  the column follows the bytes of that line before it.
-/
theorem location_natCast
    (f : SourceFile)
    (n : Nat) :
    f.location n =
      { path := f.path
        offset := n
        line := ((f.data.take n).count lineFeed : Nat) + 1
        column := columnAfter (lastLine (f.data.take n)) } := by
  have hStarts :
      lineStarts f.data =
        lineStarts (f.data.take n) ++
          startsOnto [] (f.data.take n).length
            (f.data.drop n) := by
    rw [← lineStarts_append, List.take_append_drop]
  have hCount :
      startsUpTo (lineStarts f.data) n =
        (f.data.take n).count lineFeed + 1 := by
    rw [hStarts, ← length_lineStarts]
    apply startsUpTo_append
    · intro start hMem
      have hLe := le_of_mem_lineStarts hMem
      have hTake := List.length_take_le n f.data
      omega
    · -- Where bytes are left, as many as asked for are taken.
      intro start hMem
      have hIn := mem_startsOnto hMem
      rw [List.length_take, List.length_drop] at hIn
      omega
  rcases lineStarts_eq_append (f.data.take n) with
    ⟨before, start, hLast, hLine⟩
  have hBefore :
      before.length = (f.data.take n).count lineFeed := by
    have hLength := length_lineStarts (f.data.take n)
    rw [hLast, List.length_append] at hLength
    exact Nat.succ.inj hLength
  have hStart :
      (lineStarts f.data).getD
          ((f.data.take n).count lineFeed) 0 = start := by
    rw [hStarts, hLast, ← hBefore]
    simp
  have hIndex :
      (((f.data.take n).count lineFeed + 1 : Nat) : Int) - 1 =
        ((f.data.take n).count lineFeed : Nat) := by
    omega
  unfold location
  dsimp only
  rw [hCount, hIndex]
  unfold fromFront slice
  rw [if_pos (Int.natCast_nonneg _),
    if_pos (Int.natCast_nonneg _), Int.toNat_natCast,
    Int.toNat_natCast, hStart, hLine]

end SourceFile

------------------------------------------------------------
-- Characters of Longer Bytes
------------------------------------------------------------

namespace Utf8

/-
  What a lead byte reads stays the same when bytes follow,
  unless it has read all that there were.
-/
theorem readTails_append_cases
    (low high : UInt8)
    (code owed : Nat)
    (a s : Bytes) :
    readTails low high code owed (a ++ s) =
        readTails low high code owed a ∨
      (readTails low high code owed a).1 = a.length := by
  induction owed generalizing low high code a with
  | zero => exact Or.inl rfl
  | succ owed ih =>
      cases a with
      | nil => exact Or.inr rfl
      | cons b a =>
          rw [List.cons_append, readTails, readTails]
          split
          · rcases ih 0x80 0xBF
                (code * 64 + (b.toNat - 0x80)) a with
              hSame | hAll
            · left
              rw [hSame]
            · right
              rw [List.length_cons, ← hAll]
          · exact Or.inl rfl

/- A chunk stays the same when bytes follow, or it is the last. -/
theorem chunkAt_append_cases
    (b : UInt8)
    (a s : Bytes) :
    chunkAt b (a ++ s) = chunkAt b a ∨
      (chunkAt b a).extra = a.length := by
  unfold chunkAt
  cases lead? b with
  | none => exact Or.inl rfl
  | some lead =>
      rcases readTails_append_cases lead.low lead.high lead.bits
          lead.tails a s with
        hSame | hAll
      · left
        dsimp only
        rw [hSame]
      · exact Or.inr hAll

/- Lenient decoding reads no fewer characters of longer bytes. -/
theorem length_decodeLenient_append_le
    (a s : Bytes) :
    (decodeLenient a).length ≤
      (decodeLenient (a ++ s)).length := by
  unfold decodeLenient
  rw [List.length_map, List.length_map]
  induction a using chunk_induction with
  | nil => exact Nat.zero_le _
  | cons b a ih =>
      rw [List.cons_append, chunks_cons, chunks_cons,
        List.length_cons, List.length_cons]
      apply Nat.succ_le_succ
      rcases chunkAt_append_cases b a s with hSame | hAll
      · rw [hSame,
          List.drop_append_of_le_length (chunkAt_extra_le b a)]
        exact ih
      · rw [hAll, List.drop_length]
        exact Nat.zero_le _

end Utf8

------------------------------------------------------------
-- The Order of Locations
------------------------------------------------------------

/- A location does not stand behind another in line and column. -/
def Location.NotBehind (l l' : Location) : Prop :=
  l.line < l'.line ∨ l.line = l'.line ∧ l.column ≤ l'.column

namespace SourceFile

variable {f : SourceFile}
variable {text : List Char}
variable {m n : Nat}

/- An offset that is not later is not put behind. -/
theorem location_notBehind
    (f : SourceFile)
    (h : m ≤ n) :
    (f.location m).NotBehind (f.location n) := by
  rcases List.take_prefix_take_left h with ⟨s, hBetween⟩
  rw [location_natCast, location_natCast, ← hBetween]
  unfold Location.NotBehind
  by_cases hFeed : lineFeed ∈ s
  · left
    have hCount := List.count_pos_iff.mpr hFeed
    simp only [List.count_append]
    omega
  · right
    have hLonger :=
      Utf8.length_decodeLenient_append_le
        (lastLine (f.data.take m)) s
    constructor
    · rw [List.count_append, List.count_eq_zero.mpr hFeed]
      rfl
    · dsimp only
      rw [lastLine_append _ hFeed]
      unfold columnAfter
      omega

/- The column grows by the characters between two boundaries. -/
theorem column_lt_of_boundary
    (hData : f.data = Utf8.encode text)
    (hm : Utf8.IsBoundary text m)
    (hn : Utf8.IsBoundary text n)
    (h : m < n)
    (hLine : (f.location m).line = (f.location n).line) :
    (f.location m).column < (f.location n).column := by
  rcases Utf8.exists_encode_eq_slice hm hn (Nat.le_of_lt h)
    with ⟨t, hSlice⟩
  have hBetween :
      f.data.take n = f.data.take m ++ Utf8.encode t := by
    rw [hData, ← hSlice, ← List.take_add,
      Nat.add_sub_cancel' (Nat.le_of_lt h)]
  have hSome : t ≠ [] := by
    rintro rfl
    have hLength := congrArg List.length hSlice
    have hEnd := hn.le_length
    rw [List.length_take, List.length_drop, Utf8.encode_nil,
      List.length_nil] at hLength
    omega
  rw [location_natCast, location_natCast, hBetween] at hLine ⊢
  have hFeed : lineFeed ∉ Utf8.encode t := by
    rw [← List.count_eq_zero]
    simp only [List.count_append] at hLine
    omega
  have hMore := List.length_pos_iff.mpr hSome
  dsimp only
  rw [lastLine_append _ hFeed]
  unfold columnAfter
  rw [Utf8.decodeLenient_append_encode, List.length_append]
  omega

/-
  The line of an offset counts the line feeds before it.
  Locations are in the order of the offsets, whatever the
  bytes are.  In valid text they tell boundaries apart.
-/
theorem location_orders_offsets (f : SourceFile) :
    (∀ n : Nat,
      (f.location n).line =
        ((f.data.take n).count lineFeed : Nat) + 1) ∧
      (∀ m n : Nat,
        m ≤ n → (f.location m).NotBehind (f.location n)) ∧
      ∀ text,
        Utf8.decode? f.data = some text →
          ∀ m n : Nat,
            Utf8.IsBoundary text m → Utf8.IsBoundary text n →
              m ≠ n →
                ((f.location m).line, (f.location m).column) ≠
                  ((f.location n).line,
                    (f.location n).column) := by
  refine
    ⟨fun n => by rw [location_natCast],
      fun m n hLe => f.location_notBehind hLe, ?_⟩
  intro text hText m n hm hn hNe hSame
  have hData : f.data = Utf8.encode text :=
    Utf8.decode?_eq_some_iff.mp hText
  rcases Prod.mk.inj hSame with ⟨hLine, hColumn⟩
  rcases Nat.lt_or_gt_of_ne hNe with hLt | hGt
  · have hLess := column_lt_of_boundary hData hm hn hLt hLine
    omega
  · have hLess :=
      column_lt_of_boundary hData hn hm hGt hLine.symm
    omega

/- A letter of two bytes, a line feed and a sign of three bytes. -/
theorem location_orders_offsets_accent :
    let f :=
      read [0xC3, 0xA9, 0x0A, 0xE2, 0x82, 0xAC] "a.c"
    (f.location 4).line = 2 ∧
      (f.location 1).NotBehind (f.location 4) ∧
      Utf8.decode? f.data = some ['é', '\n', '€'] ∧
      Utf8.IsBoundary ['é', '\n', '€'] 3 ∧
      Utf8.IsBoundary ['é', '\n', '€'] 6 ∧
      ((f.location 3).line, (f.location 3).column) ≠
        ((f.location 6).line, (f.location 6).column) := by
  intro f
  rcases f.location_orders_offsets with
    ⟨hLine, hOrder, hApart⟩
  have hBefore : Utf8.IsBoundary ['é', '\n', '€'] 3 :=
    ⟨['é', '\n'], ['€'], rfl, by decide⟩
  have hBehind : Utf8.IsBoundary ['é', '\n', '€'] 6 :=
    ⟨['é', '\n', '€'], [], rfl, by decide⟩
  exact
    ⟨hLine 4, hOrder 1 4 (by decide), by decide, hBefore,
      hBehind,
      hApart _ (by decide) 3 6 hBefore hBehind (by decide)⟩

end SourceFile

end CommentLint
