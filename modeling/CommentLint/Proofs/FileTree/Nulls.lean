import CommentLint.Proofs.FileTree.Resolving

/-
  Null characters in resolved paths.

  Resolving ends at a name that holds a null, and where links
  loop the text that is kept ends before one.  So the path
  that comes out holds none.

  Key definitions include:
    * `FileTree.NullFree`

  Key results include:
    * `Path.hasNull_untilNull`
    * `FileTree.nullFree_resolveNames`
    * `FileTree.hasNull_of_resolve`
-/

namespace CommentLint

------------------------------------------------------------
-- Nulls in Paths
------------------------------------------------------------

namespace Path

variable {p q : Path}

/- A name adds a null to a path when it holds one. -/
theorem hasNull_join (name : String) :
    (p.join name).hasNull = (p.hasNull || nameHasNull name) := by
  simp [hasNull, join]

/- A path without a null is one whose names have none. -/
theorem hasNull_eq_false_iff :
    p.hasNull = false ↔
      ∀ name ∈ p.names, nameHasNull name = false := by
  simp [hasNull]

/- The path above one without a null has none. -/
theorem hasNull_parent
    (h : p.hasNull = false) :
    p.parent.hasNull = false := by
  rw [hasNull_eq_false_iff] at h ⊢
  intro name hMem
  exact h name (List.mem_of_mem_dropLast hMem)

/- The same for a resolved path. -/
theorem hasNull_above
    (h : p.hasNull = false) :
    p.above.hasNull = false := by
  have hUp : (p.join "..").hasNull = false := by
    rw [hasNull_join, h]
    rfl
  unfold above
  split
  · exact hUp
  · exact hUp
  · exact hasNull_parent h

/- A piece of a text has no characters but those of the text. -/
theorem mem_of_mem_splitOn
    {c sep : Char}
    {chars piece : List Char}
    (hPiece : piece ∈ chars.splitOn sep)
    (hMem : c ∈ piece) :
    c ∈ chars := by
  induction chars generalizing piece with
  | nil =>
      rw [List.splitOn_nil, List.mem_singleton] at hPiece
      rwa [hPiece] at hMem
  | cons first rest ih =>
      rw [List.splitOn_cons_eq_if_modifyHead] at hPiece
      split at hPiece
      · rcases List.mem_cons.mp hPiece with rfl | hRest
        · cases hMem
        · exact List.mem_cons_of_mem _ (ih hRest hMem)
      · cases hPieces : rest.splitOn sep with
        | nil =>
            rw [hPieces] at hPiece
            cases hPiece
        | cons head pieces =>
            rw [hPieces, List.modifyHead_cons] at hPiece
            rw [hPieces] at ih
            rcases List.mem_cons.mp hPiece with rfl | hRest
            · rcases List.mem_cons.mp hMem with rfl | hHead
              · exact List.mem_cons_self
              · exact
                  List.mem_cons_of_mem _
                    (ih List.mem_cons_self hHead)
            · exact
                List.mem_cons_of_mem _
                  (ih (List.mem_cons_of_mem _ hRest) hMem)

/- What is read from a text without a null has none. -/
theorem hasNull_ofString
    {chars : List Char}
    (h : '\x00' ∉ chars) :
    (ofString (String.ofList chars)).hasNull = false := by
  rw [hasNull_eq_false_iff]
  intro name hMem
  simp only [ofString, String.toList_ofList, List.mem_map,
    List.mem_filter] at hMem
  rcases hMem with ⟨piece, ⟨hPiece, _⟩, rfl⟩
  unfold nameHasNull
  rw [String.toList_ofList]
  simpa using fun hNull => h (mem_of_mem_splitOn hPiece hNull)

/- Up to its first null a path holds none. -/
theorem hasNull_untilNull (p : Path) :
    p.untilNull.hasNull = false := by
  apply hasNull_ofString
  intro hMem
  have hNe := List.all_eq_true.mp List.all_takeWhile _ hMem
  simp at hNe

end Path

------------------------------------------------------------
-- Resolving
------------------------------------------------------------

/- Text that follows makes no resolution a done one. -/
theorem Resolution.followedBy_ne_done
    {r : Resolution}
    (h : ∀ q, r = .done q → False)
    (rest : List String)
    (q : Path) :
    r.followedBy rest ≠ .done q := by
  cases r with
  | done q => exact absurd rfl (h q)
  | looped q => simp [followedBy]
  | nullByte => simp [followedBy]
  | tooDeep => simp [followedBy]

namespace FileTree

variable {t : FileTree}

/-
  What resolving ends with holds no null: what links were
  resolved to, and the path that it gives, if it gives one.
-/
def NullFree (r : KnownLinks × Resolution) : Prop :=
  (∀ p q, r.1.lookup p = some (.resolved q) →
      q.hasNull = false) ∧
    ∀ q, r.2 = .done q → q.hasNull = false

/- A resolution that gives no path adds none with a null. -/
theorem NullFree.of_known
    {known : KnownLinks}
    {r r' : Resolution}
    (h : NullFree (known, r))
    (hDone : ∀ q, r' ≠ .done q) :
    NullFree (known, r') :=
  ⟨h.1, fun q hEq => absurd hEq (hDone q)⟩

/- Another path without a null may be reached. -/
theorem NullFree.of_path
    {known : KnownLinks}
    {r : Resolution}
    {q : Path}
    (h : NullFree (known, r))
    (hNull : q.hasNull = false) :
    NullFree (known, .done q) := by
  refine ⟨h.1, ?_⟩
  rintro _ ⟨⟩
  exact hNull

/- A link that is being resolved has no path yet. -/
theorem NullFree.cons_pending
    {known : KnownLinks}
    {here : Path}
    (h : NullFree (known, .done here))
    (p : Path) :
    NullFree ((p, .pending) :: known, .done here) := by
  refine ⟨?_, h.2⟩
  intro q r hLookup
  rw [KnownLinks.lookup_cons] at hLookup
  split at hLookup
  · cases hLookup
  · exact h.1 q r hLookup

/- A link is remembered by the path that it was resolved to. -/
theorem NullFree.cons_resolved
    {known : KnownLinks}
    {q : Path}
    (h : NullFree (known, .done q))
    (p : Path) :
    NullFree ((p, .resolved q) :: known, .done q) := by
  refine ⟨?_, h.2⟩
  intro p' r hLookup
  rw [KnownLinks.lookup_cons] at hLookup
  split at hLookup
  · cases hLookup
    exact h.2 q rfl
  · exact h.1 p' r hLookup

/- Names are resolved to names without a null. -/
theorem nullFree_resolveNames
    {enter :
      KnownLinks → Path → Path → String →
        KnownLinks × Resolution}
    {known : KnownLinks}
    {here : Path}
    {names : List String}
    (hEnter :
      ∀ known here p target,
        NullFree (known, .done here) →
          NullFree (enter known here p target))
    (h : NullFree (known, .done here)) :
    NullFree (t.resolveNames enter known here names) := by
  induction names generalizing known here with
  | nil => exact h
  | cons name rest ih =>
      have hHere := h.2 here rfl
      rw [resolveNames]
      split
      case isTrue => exact ih h
      case isFalse =>
        split
        case isTrue => exact ih (h.of_path (Path.hasNull_above hHere))
        case isFalse =>
          split
          case isTrue => exact h.of_known (by simp)
          case isFalse hNull =>
            have hJoin : (here.join name).hasNull = false := by
              rw [Path.hasNull_join, hHere]
              simpa using hNull
            dsimp only
            split
            case h_1 => exact ih (h.of_path hJoin)
            case h_2 target q _ hResolved =>
              exact ih (h.of_path (h.1 _ q hResolved))
            case h_3 =>
              exact h.of_known (by simp [Resolution.followedBy])
            case h_4 target _ _ =>
              -- The target is resolved from where the link was met.
              have hEntered :=
                hEnter _ here (here.join name) target
                  (h.cons_pending (here.join name))
              split
              case h_1 known' q hDone =>
                rw [hDone] at hEntered
                exact ih (hEntered.cons_resolved _)
              case h_2 known' r hNot hEnd =>
                rw [hEnd] at hEntered
                exact
                  hEntered.of_known
                    (Resolution.followedBy_ne_done hNot rest)

/- Targets of links are resolved to names without a null. -/
theorem nullFree_resolveLink
    {known : KnownLinks}
    {here : Path}
    (depth : Nat)
    (h : NullFree (known, .done here))
    (p : Path)
    (target : String) :
    NullFree (t.resolveLink depth known here p target) := by
  induction depth generalizing known here p target with
  | zero => exact h.of_known (by simp)
  | succ depth ih =>
      rw [resolveLink]
      apply nullFree_resolveNames
      · intro known here p target hNext
        exact ih hNext p target
      · split
        · exact h.of_path rfl
        · exact h

/- What is made absolute has no null but those of the path. -/
theorem hasNull_absolute
    {p : Path}
    (hTree : t.WellFormed)
    (h : p.hasNull = false) :
    (t.absolute p).hasNull = false := by
  rw [Path.hasNull_eq_false_iff] at h ⊢
  intro name hMem
  rcases mem_foldl_pushName (List.mem_reverse.mp hMem) with
    hDone | ⟨hMem, _⟩
  · cases hDone
  · unfold Path.append at hMem
    split at hMem
    · exact h name hMem
    · rcases List.mem_append.mp hMem with hPlace | hMem
      · rcases hTree.workplace with ⟨entries, hWorkplace⟩
        exact
          (hTree.root.isEntryName_of_mem hWorkplace
            hPlace).hasNull
      · exact h name hMem

/- What resolving gives holds no null. -/
theorem hasNull_of_resolve
    {p q : Path}
    (hTree : t.WellFormed)
    (h : t.resolve p = .ok q) :
    q.hasNull = false := by
  have hFree :
      NullFree
        (t.resolveNames (t.resolveLink nestingLimit) []
          ⟨if p.isAbsolute then .root else .here, []⟩
          p.names) := by
    apply nullFree_resolveNames
    · intro known here p target hNext
      exact nullFree_resolveLink nestingLimit hNext p target
    · refine ⟨by simp, ?_⟩
      rintro r ⟨⟩
      rfl
  unfold resolve at h
  split at h
  case h_1 => cases h
  case h_2 => cases h
  case h_3 r hDone =>
    rw [eq_of_unlooped h]
    exact hasNull_absolute hTree (hFree.2 r hDone)
  case h_4 r _ =>
    rw [eq_of_unlooped h]
    exact Path.hasNull_untilNull _

end FileTree

end CommentLint
