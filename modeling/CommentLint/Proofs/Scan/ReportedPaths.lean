import CommentLint.Proofs.FileTree.Resolving
import CommentLint.Proofs.FileTree.Status
import CommentLint.Scan.Basic

/-
  The paths by which files are reported.

  A file is reported by the names that lead to it from the
  directory that is scanned, links being resolved, or by its
  own path if it lies elsewhere.  Two files that are reported
  by one path are the same file.

  Key results include:
    * `FileTree.relativeText_inj`
    * `FileTree.exists_reportedPath`
    * `FileTree.data_eq_of_reportedPath_eq`
-/

namespace CommentLint

open Node

namespace FileTree

variable {t : FileTree}
variable {root base p : Path}
variable {place rest : Place}
variable {data data' : Bytes}

------------------------------------------------------------
-- Texts of Names
------------------------------------------------------------

/- Names of entries make up a path of plain names. -/
theorem hasPlainNames_of_isEntryName
    (anchor : Anchor)
    (h : ∀ name ∈ rest, IsEntryName name) :
    (Path.mk anchor rest).HasPlainNames := by
  intro name hMem
  exact ⟨(h name hMem).isName, (h name hMem).slash_not_mem⟩

/- Names are read back from their text. -/
theorem ofString_relativeText
    (h : ∀ name ∈ rest, IsEntryName name) :
    Path.ofString (relativeText rest) = ⟨.here, rest⟩ :=
  Path.ofString_text (hasPlainNames_of_isEntryName .here h)

/- Names are told apart by their texts. -/
theorem relativeText_inj
    {rest' : Place}
    (hNames : ∀ name ∈ rest, IsEntryName name)
    (hNames' : ∀ name ∈ rest', IsEntryName name)
    (h : relativeText rest = relativeText rest') :
    rest = rest' := by
  have hPaths := congrArg Path.ofString h
  rw [ofString_relativeText hNames,
    ofString_relativeText hNames'] at hPaths
  exact congrArg Path.names hPaths

/- The text of names is not that of an absolute path. -/
theorem relativeText_ne_text
    (hNames : ∀ name ∈ rest, IsEntryName name)
    (hAbsolute : p.isAbsolute = true) :
    relativeText rest ≠ p.text :=
  Path.ne_text_of_isAbsolute rfl
    (hasPlainNames_of_isEntryName .here hNames) hAbsolute

------------------------------------------------------------
-- Reported Paths
------------------------------------------------------------

/- The path of what stands for a place is one of entries. -/
theorem StandsFor.isEntryName_of_namesTo?
    {q there : Place}
    (hTree : t.WellFormed)
    (hStands : t.StandsFor q there)
    (h : base.namesTo? (pathOf q) = some rest) :
    ∀ name ∈ rest, IsEntryName name := by
  rcases hStands.exists_at? with ⟨n, hNode⟩
  have hBelow := Path.namesTo?_eq_some_iff.mp h
  have hNames : q = base.names ++ rest :=
    congrArg Path.names hBelow
  intro name hMem
  apply hTree.root.isEntryName_of_mem hNode
  rw [hNames]
  exact List.mem_append_right _ hMem

/-
  An absolute path of something that is no link is reported by
  what it was resolved to, or by its text.
-/
theorem exists_reportedPath
    {there : Place}
    {n : Node}
    (hTree : t.WellFormed)
    (hFit : t.DirectoryLinksFit)
    (hAbsolute : p.isAbsolute = true)
    (hFind : t.find p = .ok (there, n))
    (base : Path) :
    ∃ q,
      t.StandsFor q there ∧
        t.reportedPath base p =
          .ok
            (((base.namesTo? (pathOf q)).map relativeText).getD
              p.text) := by
  rcases resolve_of_find hTree hFit hAbsolute hFind with
    ⟨q, hResolve, hStands⟩
  refine ⟨q, hStands, ?_⟩
  unfold reportedPath
  rw [hResolve]

/- A file lies below the root. -/
theorem names_ne_nil_of_find
    {there : Place}
    (hTree : t.WellFormed)
    (hAbsolute : p.isAbsolute = true)
    (hFind : t.find p = .ok (there, .file data)) :
    p.names ≠ [] := by
  rcases leads_of_find hTree hFind with
    ⟨links, _, hLeads, hFile, _⟩
  intro hNil
  rw [hNil, start, if_pos hAbsolute] at hLeads
  cases hLeads
  rcases hTree.workplace.nil with ⟨entries, hRoot⟩
  rw [hRoot] at hFile
  cases hFile

/- Places that are reported alike from a path are the same. -/
theorem StandsFor.eq_of_relativeText_eq
    {q q' there there' : Place}
    {rest' : Place}
    (hTree : t.WellFormed)
    (hStands : t.StandsFor q there)
    (hStands' : t.StandsFor q' there')
    (hRest : base.namesTo? (pathOf q) = some rest)
    (hRest' : base.namesTo? (pathOf q') = some rest')
    (hSame : relativeText rest = relativeText rest') :
    q = q' := by
  have hNames := hStands.isEntryName_of_namesTo? hTree hRest
  have hNames' := hStands'.isEntryName_of_namesTo? hTree hRest'
  have hEq := relativeText_inj hNames hNames' hSame
  rw [hEq] at hRest
  have hPath : pathOf q = pathOf q' :=
    (Path.namesTo?_eq_some_iff.mp hRest).trans
      (Path.namesTo?_eq_some_iff.mp hRest').symm
  exact congrArg Path.names hPath

/- Files below a path that are reported alike are the same. -/
theorem data_eq_of_reportedPath_eq
    (hTree : t.WellFormed)
    (hFit : t.DirectoryLinksFit)
    (hAbsolute : root.isAbsolute = true)
    (hFile :
      t.status (root.below place) = .ok (some (.file data)))
    (hFile' :
      t.status (root.below rest) = .ok (some (.file data')))
    (hSame :
      t.reportedPath base (root.below place) =
        t.reportedPath base (root.below rest)) :
    data = data' := by
  have hBelow :
      ∀ place : Place, (root.below place).isAbsolute = true :=
    fun _ => hAbsolute
  rcases exists_find_of_status hFile with ⟨_, there, hFind⟩
  rcases exists_find_of_status hFile' with
    ⟨_, there', hFind'⟩
  rcases exists_reportedPath hTree hFit (hBelow place) hFind
      base with
    ⟨q, hStands, hReported⟩
  rcases exists_reportedPath hTree hFit (hBelow rest) hFind'
      base with
    ⟨q', hStands', hReported'⟩
  rw [hReported, hReported', Except.ok.injEq] at hSame
  cases hRest : base.namesTo? (pathOf q) with
  | some names =>
      rw [hRest] at hSame
      have hNames :=
        hStands.isEntryName_of_namesTo? hTree hRest
      cases hRest' : base.namesTo? (pathOf q') with
      | some names' =>
          rw [hRest'] at hSame
          have hPlace :=
            hStands.eq_of_relativeText_eq hTree hStands' hRest
              hRest' hSame
          subst hPlace
          have hNode := at?_of_find hTree hFind
          have hNode' := at?_of_find hTree hFind'
          have hThere :=
            hStands.unique hTree (by simp [hNode])
              (by simp [hNode']) hStands'
          subst hThere
          rw [hNode] at hNode'
          cases hNode'
          rfl
      | none =>
          rw [hRest'] at hSame
          exact
            absurd hSame
              (relativeText_ne_text hNames (hBelow rest))
  | none =>
      rw [hRest] at hSame
      cases hRest' : base.namesTo? (pathOf q') with
      | some names' =>
          rw [hRest'] at hSame
          have hNames' :=
            hStands'.isEntryName_of_namesTo? hTree hRest'
          exact
            absurd hSame.symm
              (relativeText_ne_text hNames' (hBelow place))
      | none =>
          rw [hRest'] at hSame
          have hPlace :=
            Path.text_below_inj
              (names_ne_nil_of_find hTree (hBelow place) hFind)
              (names_ne_nil_of_find hTree (hBelow rest) hFind')
              (slash_not_mem_of_find hTree hFind)
              (slash_not_mem_of_find hTree hFind') hSame
          subst hPlace
          rw [hFile] at hFile'
          cases hFile'
          rfl

end FileTree

end CommentLint
