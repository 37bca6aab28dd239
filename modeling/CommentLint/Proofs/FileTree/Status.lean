import CommentLint.Proofs.FileTree.Leading

/-
  Questions about paths.

  A path that is found answers with what it leads to.  One
  that answers nothing but an error is too long, or meets a
  name that is.

  Key results include:
    * `FileTree.status_of_find`
    * `FileTree.exists_find_of_status`
    * `FileTree.exists_find_of_isDirectory`
    * `FileTree.read_of_status`
    * `FileTree.status_below`
-/

namespace CommentLint

open Node

namespace FileTree

variable {t : FileTree}
variable {p : Path}
variable {base place : Place}
variable {n : Node}
variable {data : Bytes}

/- A path that leads somewhere is found and holds no null. -/
theorem exists_find_of_status
    (h : t.status p = .ok (some n)) :
    p.hasNull = false ∧ ∃ place, t.find p = .ok (place, n) := by
  unfold status at h
  split at h
  case isTrue => cases h
  case isFalse hNull =>
    refine ⟨by simpa using hNull, ?_⟩
    split at h
    case h_1 place m hFind =>
      cases h
      exact ⟨place, hFind⟩
    case h_2 => cases h
    case h_3 => cases h

/- What is found answers the question. -/
theorem status_of_find
    (hTree : t.WellFormed)
    (h : t.find p = .ok (place, n)) :
    t.status p = .ok (some n) := by
  unfold status
  rw [if_neg (by simp [hasNull_of_find hTree h]), h]

/- A path to a directory is found. -/
theorem exists_find_of_isDirectory
    (h : t.isDirectory p = .ok true) :
    ∃ place entries, t.find p = .ok (place, .directory entries) := by
  unfold isDirectory at h
  cases hStatus : t.status p with
  | error cause =>
      rw [hStatus] at h
      cases h
  | ok found =>
      rw [hStatus] at h
      rcases found with _ | ⟨data | entries | target⟩
      · cases h
      · cases h
      · rcases exists_find_of_status hStatus with
          ⟨_, place, hFind⟩
        exact ⟨place, entries, hFind⟩
      · cases h

/- A path that answers is not too long. -/
theorem isLong_of_status
    {found : Option Node}
    (hNull : p.hasNull = false)
    (h : t.status p = .ok found) :
    p.isLong = false := by
  by_contra hLong
  rw [Bool.not_eq_false] at hLong
  have hFind : t.find p = .error .nameTooLong := by
    unfold find FileTree.target
    rw [if_pos hLong]
  unfold status at h
  rw [if_neg (by simp [hNull]), hFind] at h
  cases h

/- A file that a path leads to can be read. -/
theorem read_of_status
    (h : t.status p = .ok (some (.file data))) :
    t.read p = .ok data := by
  rcases exists_find_of_status h with ⟨hNull, place, hFind⟩
  unfold read
  rw [if_neg (by simp [hNull]), hFind]

/- Names of entries add no null to a path. -/
theorem hasNull_below
    (hNull : p.hasNull = false)
    (hNames : ∀ name ∈ place, IsEntryName name) :
    (p.below place).hasNull = false := by
  unfold Path.hasNull at hNull ⊢
  rw [List.any_eq_false] at hNull ⊢
  intro name hMem
  rcases List.mem_append.mp hMem with hMem | hMem
  · exact hNull name hMem
  · simp [(hNames name hMem).hasNull]

section Below

variable {entries : List (String × Node)}

/- What stands below a directory stands in the tree. -/
theorem at?_below_of_find
    (hTree : t.WellFormed)
    (h : t.find p = .ok (base, n)) :
    t.root.at? (base ++ place) = n.at? place :=
  at?_append_of_at? (at?_of_find hTree h) place

/- The path of an entry holds no null. -/
theorem hasNull_below_of_find
    {m : Node}
    (hTree : t.WellFormed)
    (h : t.find p = .ok (base, n))
    (hEntry : n.at? place = some m) :
    (p.below place).hasNull = false := by
  apply hasNull_below (hasNull_of_find hTree h)
  intro name hMem
  exact
    (hTree.root.at? (at?_of_find hTree h)).isEntryName_of_mem
      hEntry hMem

/- An entry that is no link answers for itself. -/
theorem status_below
    {m : Node}
    (hTree : t.WellFormed)
    (h : t.find p = .ok (base, .directory entries))
    (hEntry : (Node.directory entries).at? place = some m)
    (hLink : ∀ target, m ≠ .link target)
    (hLong : (p.below place).isLong = false) :
    t.status (p.below place) = .ok (some m) := by
  apply status_of_find hTree
  apply find_below hTree h _ hLink hLong
  rw [at?_below_of_find hTree h]
  exact hEntry

end Below

end FileTree

end CommentLint
