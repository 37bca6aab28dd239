import CommentLint.Proofs.FileTree.Resolving

/-
  Trees without links.

  Without links a path is resolved by its names alone.  What
  comes out, if it leads anywhere, is the path of the place to
  which it leads, and is resolved to itself.

  Key definitions include:
    * `Node.LinkFree`

  Key results include:
    * `FileTree.linkAt?_eq_none`
    * `FileTree.resolve_below_eq_self`
-/

namespace CommentLint

open Node

/- No link stands anywhere below a node. -/
def Node.LinkFree (n : Node) : Prop :=
  ∀ place target, n.at? place ≠ some (.link target)

namespace FileTree

variable {t : FileTree}
variable {root n : Node}
variable {place there here : Place}
variable {names : List String}
variable {p q : Path}
variable {links : Nat}

------------------------------------------------------------
-- Lookups
------------------------------------------------------------

/- What a lookup arrives at stands in the tree. -/
theorem at?_of_advance
    {purpose : Purpose}
    (h :
      advance root purpose here names =
        .arrived (.node place n)) :
    root.at? place = some n := by
  fun_induction advance root purpose here names with
  | case1 here m hNode =>
      cases h
      exact hNode
  | case2 => cases h
  | case3 here name rest hName ih => exact ih h
  | case4 here rest hName ih => exact ih h
  | case5 => cases h
  | case6 => cases h
  | case7 => cases h
  | case8 => cases h
  | case9 here name rest hName hUp hCreate hLong entries hEntry
      ih => exact ih h
  | case10 here name rest hName hUp hCreate hLong data hEntry =>
      cases h
      rw [at?_append_singleton]
      exact hEntry
  | case11 => cases h
  | case12 here name rest hName hUp hCreate hLong target
      hEntry =>
      cases h
      rw [at?_append_singleton]
      exact hEntry
  | case13 => cases h

/- What names and links lead to stands in the tree. -/
theorem at?_of_follow
    {purpose : Purpose}
    (h :
      follow root purpose links here names =
        .ok (.node place n)) :
    root.at? place = some n := by
  induction links generalizing here names with
  | zero => cases h
  | succ links ih =>
      rw [follow] at h
      cases hAdvance : advance root purpose here names with
      | arrived target =>
          rw [hAdvance] at h
          cases h
          exact at?_of_advance hAdvance
      | failed cause =>
          rw [hAdvance] at h
          cases h
      | redirected middle target rest =>
          rw [hAdvance] at h
          exact ih h

/- Without links no path is that of a link. -/
theorem linkAt?_eq_none
    (hFree : t.root.LinkFree)
    (p : Path) :
    t.linkAt? p = none := by
  unfold linkAt?
  split
  case h_1 place target hTarget =>
    unfold FileTree.target at hTarget
    split at hTarget
    case isTrue => cases hTarget
    case isFalse =>
      exact absurd (at?_of_follow hTarget) (hFree place target)
  case h_2 => rfl

/- Without links names lead where they say. -/
theorem eq_append_of_leads
    (hFree : root.LinkFree)
    (h : root.Leads place names links there)
    (hNames :
      ∀ name ∈ names,
        Path.isName name.toList = true ∧ name ≠ "..") :
    there = place ++ names := by
  induction h with
  | here place => simp
  | @skip place there name rest links hHere hName hRest ih =>
      have hIs := (hNames name (by simp)).1
      rw [hName] at hIs
      cases hIs
  | up hHere hRest ih =>
      exact absurd rfl (hNames ".." (by simp)).2
  | directory hName hUp hEntry hRest ih =>
      rw [ih fun name hMem => hNames name (by simp [hMem])]
      simp
  | file hName hUp hEntry => rfl
  | link hName hUp hEntry hTarget hRest ihTarget ihRest =>
      exact absurd hEntry (hFree _ _)

------------------------------------------------------------
-- Resolving
------------------------------------------------------------

/- Without links there are none that cannot be read. -/
theorem linksFit_of_linkFree
    (hFree : t.root.LinkFree) :
    t.LinksFit := by
  intro place target hEntry
  exact absurd hEntry (hFree place target)

/- The path above has no new names but `..`. -/
theorem above_names
    (hHere :
      ∀ name ∈ p.names, Path.isName name.toList = true) :
    p.above.anchor = p.anchor ∧
      ∀ name ∈ p.above.names,
        Path.isName name.toList = true := by
  have hJoin :
      ∀ name ∈ (p.join "..").names,
        Path.isName name.toList = true := by
    intro name hMem
    rcases List.mem_append.mp hMem with hMem | hMem
    · exact hHere name hMem
    · rcases List.mem_singleton.mp hMem with rfl
      decide
  unfold Path.above
  split
  · exact ⟨rfl, hJoin⟩
  · exact ⟨rfl, hJoin⟩
  · exact
      ⟨rfl,
        fun name hMem =>
          hHere name (List.mem_of_mem_dropLast hMem)⟩

/-
  Without links resolving names ends at a null, or in a path
  of names.
-/
theorem resolveNames_of_linkFree
    (hFree : t.root.LinkFree)
    (enter :
      KnownLinks → Path → Path → String →
        KnownLinks × Resolution)
    (known : KnownLinks)
    (hHere :
      ∀ name ∈ p.names, Path.isName name.toList = true) :
    (t.resolveNames enter known p names).2 = .nullByte ∨
      ∃ q,
        (t.resolveNames enter known p names).2 = .done q ∧
          q.anchor = p.anchor ∧
            ∀ name ∈ q.names,
              Path.isName name.toList = true := by
  induction names generalizing p with
  | nil => exact Or.inr ⟨p, rfl, rfl, hHere⟩
  | cons name rest ih =>
      rw [resolveNames]
      by_cases hName : Path.isName name.toList = true
      · rw [if_neg (by simp [hName])]
        by_cases hUp : name = ".."
        · rw [if_pos hUp]
          rcases above_names hHere with ⟨hAnchor, hAbove⟩
          rw [← hAnchor]
          exact ih hAbove
        · rw [if_neg hUp]
          by_cases hNull : Path.nameHasNull name = true
          · rw [if_pos hNull]
            exact Or.inl rfl
          · rw [if_neg hNull]
            dsimp only
            rw [linkAt?_eq_none hFree]
            apply ih
            intro other hMem
            rcases List.mem_append.mp hMem with hMem | hMem
            · exact hHere other hMem
            · rcases List.mem_singleton.mp hMem with rfl
              exact hName
      · rw [if_pos (by simpa using hName)]
        exact ih hHere

/- Without links a resolved path is one of plain names. -/
theorem names_of_resolve
    (hTree : t.WellFormed)
    (hFree : t.root.LinkFree)
    (h : t.resolve p = .ok q) :
    q.anchor = .root ∧
      ∀ name ∈ q.names,
        Path.isName name.toList = true ∧ name ≠ ".." := by
  have hEmpty :
      ∀ name ∈
        (Path.mk (if p.isAbsolute then .root else .here) []).names,
        Path.isName name.toList = true := by
    simp
  have hResolution :
      t.resolution p =
        (t.resolveNames (t.resolveLink nestingLimit) []
          ⟨if p.isAbsolute then .root else .here, []⟩
            p.names).2 :=
    rfl
  unfold resolve at h
  rcases resolveNames_of_linkFree hFree
      (t.resolveLink nestingLimit) [] hEmpty with
    hNull | ⟨r, hDone, hAnchor, hNames⟩
  · rw [hResolution, hNull] at h
    cases h
  · rw [hResolution, hDone] at h
    rw [eq_of_unlooped h]
    have hIs :
        ((pathOf t.workplace).append r).anchor = .root ∧
          ∀ name ∈ ((pathOf t.workplace).append r).names,
            Path.isName name.toList = true := by
      unfold Path.append
      by_cases hAbsolute : r.isAbsolute = true
      · rw [if_pos hAbsolute]
        refine ⟨?_, hNames⟩
        by_cases hRoot : p.isAbsolute = true
        · rw [hAnchor, if_pos hRoot]
        · rw [if_neg hRoot] at hAnchor
          simp [Path.isAbsolute, hAnchor] at hAbsolute
      · rw [if_neg hAbsolute]
        refine ⟨rfl, ?_⟩
        rcases hTree.workplace with ⟨entries, hPlace⟩
        intro name hMem
        rcases List.mem_append.mp hMem with hMem | hMem
        · exact (hTree.root.isEntryName_of_mem hPlace hMem).isName
        · exact hNames name hMem
    refine ⟨hIs.1, ?_⟩
    intro name hMem
    rcases mem_foldl_pushName (List.mem_reverse.mp hMem) with
      hDone | ⟨hMem, hUp⟩
    · cases hDone
    · exact ⟨hIs.2 name hMem, hUp⟩

/- Without links a path of plain names is that of its place. -/
theorem eq_pathOf_of_find
    (hTree : t.WellFormed)
    (hFree : t.root.LinkFree)
    (hAnchor : q.anchor = .root)
    (hNames :
      ∀ name ∈ q.names,
        Path.isName name.toList = true ∧ name ≠ "..")
    (hFind : t.find q = .ok (place, n)) :
    q = pathOf place := by
  rcases leads_of_find hTree hFind with
    ⟨links, _, hLeads, _, _⟩
  rw [start, if_pos (by simp [Path.isAbsolute, hAnchor])]
    at hLeads
  rw [eq_append_of_leads hFree hLeads hNames]
  cases q
  cases hAnchor
  rfl

/-
  Without links the path of an entry, from a resolved path, is
  resolved to itself.
-/
theorem resolve_below_eq_self
    (hTree : t.WellFormed)
    (hFree : t.root.LinkFree)
    (hResolve : t.resolve p = .ok q)
    (hNames : ∀ name ∈ place, IsEntryName name)
    (hFind : t.find (q.below place) = .ok (there, n)) :
    t.resolve (q.below place) = .ok (q.below place) := by
  rcases names_of_resolve hTree hFree hResolve with
    ⟨hAnchor, hAbove⟩
  have hBelow :
      ∀ name ∈ (q.below place).names,
        Path.isName name.toList = true ∧ name ≠ ".." := by
    intro name hMem
    rcases List.mem_append.mp hMem with hMem | hMem
    · exact hAbove name hMem
    · exact ⟨(hNames name hMem).isName, (hNames name hMem).ne_up⟩
  have hRoot : (q.below place).anchor = .root := hAnchor
  have hSelf :=
    eq_pathOf_of_find hTree hFree hRoot hBelow hFind
  have hAbsolute : (q.below place).isAbsolute = true := by
    rw [Path.isAbsolute_below]
    exact isAbsolute_of_resolve hResolve
  rw [resolve_of_find_linksFit hTree (linksFit_of_linkFree hFree)
    hAbsolute hFind, ← hSelf]

end FileTree

end CommentLint
