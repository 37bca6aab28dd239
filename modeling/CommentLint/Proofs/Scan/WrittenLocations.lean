import CommentLint.Proofs.Report.WrittenNumbers
import CommentLint.Proofs.Scan.WholeScans

/-
  Locations that can be written.

  A violation lies in its file, and neither its line nor its
  column exceeds the number of bytes up to it.  So what is
  found in a file whose size has not too many digits can be
  written, and so can the violation of a file that cannot be
  read.

  Key definitions include:
    * `FileTree.IsMeasurable`

  Key results include:
    * `SourceFile.location_le`
    * `isWritable_of_mem_lint`
    * `FileTree.IsMeasurable.isWritable_of_scanFile`
    * `FileTree.IsMeasurable.isWritable_of_scanFiles`
-/

namespace CommentLint

------------------------------------------------------------
-- Lines and Columns
------------------------------------------------------------

/- There are no more characters than bytes. -/
theorem Utf8.length_decodeLenient_le (a : Bytes) :
    (decodeLenient a).length ≤ a.length := by
  unfold decodeLenient
  rw [List.length_map]
  induction a using chunk_induction with
  | nil => exact Nat.le_refl _
  | cons b a ih =>
      rw [chunks_cons, List.length_cons, List.length_cons]
      rw [List.length_drop] at ih
      omega

namespace SourceFile

/- The last line is no longer than all the bytes. -/
theorem length_lastLine_le (a : Bytes) :
    (lastLine a).length ≤ a.length := by
  rcases lastLine_cases a with ⟨_, hAll | ⟨p, hSplit⟩⟩
  · rw [← hAll]
  · have hLength := congrArg List.length hSplit
    rw [List.length_append, List.length_cons] at hLength
    omega

/- Neither the line nor the column of an offset is far past it. -/
theorem location_le
    (f : SourceFile)
    (n : Nat) :
    (f.location n).line.natAbs ≤ n + 1 ∧
      (f.location n).column.natAbs ≤ n + 1 := by
  have hTake := List.length_take_le n f.data
  have hFeeds :=
    List.count_le_length (a := Ascii.lineFeed)
      (l := f.data.take n)
  have hLine := length_lastLine_le (f.data.take n)
  have hCharacters :=
    Utf8.length_decodeLenient_le (lastLine (f.data.take n))
  rw [location_natCast]
  unfold columnAfter
  dsimp only
  omega

end SourceFile

------------------------------------------------------------
-- Violations of One File
------------------------------------------------------------

section File

variable {sel : Selection}
variable {rules : List Rule}
variable {data : Bytes}
variable {path : String}
variable {v : Violation}

/- What is found in bytes has a location that can be written. -/
theorem isWritable_of_mem_lint
    (hRules : sel.build = .ok rules)
    (hFew : Numeral.IsWritable data.length)
    (hMem : v ∈ lint rules (SourceFile.read data path)) :
    v.location.IsWritable := by
  have hScans := SourceFile.scans_ofBytes data path none
  have hOrder := flatMap_violations_inFileOrder hScans hRules
  rw [← lint_eq_flatMap hScans hRules] at hOrder
  have hInside := hOrder.inside v hMem
  rcases exists_offset_of_mem_lint hRules hMem with
    ⟨severity, offset, _, rfl⟩
  change
    0 ≤ (SourceFile.location _ offset).offset ∧
      (SourceFile.location _ offset).offset < data.length
    at hInside
  rw [SourceFile.location_offset] at hInside
  rcases Int.eq_ofNat_of_zero_le hInside.1 with ⟨n, rfl⟩
  have hLe :=
    SourceFile.location_le (SourceFile.read data path) n
  have hWritable (m : Int) (h : m.natAbs ≤ n + 1) :
      Numeral.IsWritable m :=
    hFew.of_natAbs_le (by omega)
  exact
    ⟨hWritable n (by omega), hWritable _ hLe.1,
      hWritable _ hLe.2⟩

end File

------------------------------------------------------------
-- Sizes of Files
------------------------------------------------------------

/- A file whose size has not too many digits, or no file. -/
def Node.IsMeasurable : Node → Prop
  | .file data => Numeral.IsWritable data.length
  | _ => True

instance (n : Node) : Decidable n.IsMeasurable :=
  match n with
  | .file data =>
      inferInstanceAs (Decidable (Numeral.IsWritable data.length))
  | .directory _ => isTrue trivial
  | .link _ => isTrue trivial

namespace FileTree

variable {t : FileTree}
variable {p : Path}

/- A tree whose files have sizes with not too many digits. -/
def IsMeasurable (t : FileTree) : Prop :=
  ∀ place n, t.root.at? place = some n → n.IsMeasurable

/- A tree is so if it is so at all its places. -/
theorem isMeasurable_of_places
    (h : ∀ e ∈ t.root.places, e.2.IsMeasurable) :
    t.IsMeasurable :=
  fun _ _ hAt => h _ (Node.mem_places_of_at? hAt)

/- What is read of it has a size with not too many digits. -/
theorem IsMeasurable.of_read
    {data : Bytes}
    (h : t.IsMeasurable)
    (hTree : t.WellFormed)
    (hRead : t.read p = .ok data) :
    Numeral.IsWritable data.length := by
  unfold read at hRead
  split at hRead
  · cases hRead
  · split at hRead
    case h_1 place found hFind =>
      cases hRead
      exact h place _ (at?_of_find hTree hFind)
    case h_2 => cases hRead
    case h_3 => cases hRead

------------------------------------------------------------
-- Scans
------------------------------------------------------------

variable {sel : Selection}
variable {rules : List Rule}
variable {v : Violation}

/- What a scan reports of a file has a location to be written. -/
theorem IsMeasurable.isWritable_of_scanFile
    {relative : String}
    {inlineIgnore : Bool}
    {found : List Violation}
    (hSizes : t.IsMeasurable)
    (hTree : t.WellFormed)
    (hRules : sel.build = .ok rules)
    (h : t.scanFile rules inlineIgnore p relative = .ok found)
    (hMem : v ∈ found) :
    v.location.IsWritable := by
  unfold scanFile at h
  split at h
  case h_1 data hRead =>
    cases h
    exact
      isWritable_of_mem_lint hRules (hSizes.of_read hTree hRead)
        (Scan.lintBytes_sublist.subset hMem)
  case h_2 => cases h
  case h_3 =>
    cases h
    rw [List.mem_singleton.mp hMem]
    exact
      ⟨Numeral.isWritable_zero, Numeral.isWritable_one,
        Numeral.isWritable_one⟩

/- A result can be written where its totals can be. -/
theorem IsMeasurable.isWritable_of_scanFiles
    {r : Scan.Request}
    {files : List (Path × String)}
    {result : ScanResult}
    (hSizes : t.IsMeasurable)
    (hTree : t.WellFormed)
    (hRules : sel.build = .ok r.rules)
    (h : t.scanFiles r files = .ok result)
    (hTotals : result.IsSummable) :
    result.IsWritable where
  summable := hTotals
  locations v hMem := by
    rcases exists_scanFile_of_scanFiles h hMem with
      ⟨f, _, found, hScan, hMem⟩
    exact
      hSizes.isWritable_of_scanFile hTree hRules hScan hMem

end FileTree

end CommentLint
