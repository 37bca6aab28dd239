import CommentLint.Proofs.FileTree.WellFormed
import CommentLint.Scan.Collect
import Mathlib.Data.List.Nodup

/-
  The walk through a directory.

  The walk cuts a directory off as soon as one name on the way
  is excluded, and goes through the rest in order.  What it
  lists are the entries that are no directories and have no
  excluded name in all of their path, and that lie in
  directories whose paths are not too long.

  Key definitions include:
    * `WalksBefore`
    * `Path.ListsBefore`
    * `IsCandidate`

  Key results include:
    * `FileFilter.excludes_append`
    * `mem_candidatesBelow_iff`
    * `candidatesBelow_pairwise`
-/

namespace CommentLint

open Node

------------------------------------------------------------
-- Excluded Names
------------------------------------------------------------

namespace FileFilter

variable {f : FileFilter}

/- Nothing is excluded without an excluded name. -/
theorem excludes_eq_false_iff
    {parts : List String} :
    f.excludes parts = false ↔
      ∀ name ∈ f.excluded, name ∉ parts := by
  simp [excludes]

/- A name is excluded in a part of a path or in the rest. -/
theorem excludes_append
    (f : FileFilter)
    (parts rest : List String) :
    f.excludes (parts ++ rest) =
      (f.excludes parts || f.excludes rest) := by
  rw [Bool.eq_iff_iff]
  simp [excludes, and_or_left, exists_or]

/- What is not excluded lies in directories that are not. -/
theorem excludes_below_eq_false
    {p : Path}
    {place rest : Place}
    (h : f.excludes (p.below (place ++ rest)).parts = false) :
    f.excludes (p.below place).parts = false := by
  rw [← Path.below_below, Path.parts_below, excludes_append,
    Bool.or_eq_false_iff] at h
  exact h.1

end FileFilter

------------------------------------------------------------
-- The Order of the Walk
------------------------------------------------------------

/-
  The order of places in a walk: in a directory its files
  come first and then its subdirectories, both by name.
-/
inductive WalksBefore : Place → Place → Prop where
| files
    {x y : String}
    (h : x < y) :
    WalksBefore [x] [y]
| fileFirst
    (x y z : String)
    (rest : Place) :
    WalksBefore [x] (y :: z :: rest)
| directories
    {x y : String}
    (h : x < y)
    (a b : String)
    (as bs : Place) :
    WalksBefore (x :: a :: as) (y :: b :: bs)
| inside
    (x : String)
    {as bs : Place}
    (h : WalksBefore as bs) :
    WalksBefore (x :: as) (x :: bs)

namespace WalksBefore

/- No place comes before none. -/
theorem not_nil
    {as : Place} :
    ¬ WalksBefore as [] := by
  intro h
  cases h

/- Of two places one at most comes before the other. -/
theorem asymm
    {as bs : Place}
    (h : WalksBefore as bs) :
    ¬ WalksBefore bs as := by
  induction h with
  | files h =>
      intro h'
      cases h' with
      | files h' => exact String.lt_asymm h h'
      | inside _ h' => exact not_nil h'
  | fileFirst x y z rest =>
      intro h'
      cases h' with
      | inside _ h' => exact not_nil h'
  | directories h a b as bs =>
      intro h'
      cases h' with
      | directories h' _ _ _ _ => exact String.lt_asymm h h'
      | inside _ h' => exact String.lt_irrefl _ h
  | inside x h ih =>
      intro h'
      cases h' with
      | files h' => exact String.lt_irrefl _ h'
      | fileFirst _ _ _ _ => exact not_nil h
      | directories h' _ _ _ _ => exact String.lt_irrefl _ h'
      | inside _ h' => exact ih h'

/- Places in the order of a walk are told by what they are. -/
theorem eq_of_mem_iff
    {places places' : List Place}
    (h : places.Pairwise WalksBefore)
    (h' : places'.Pairwise WalksBefore)
    (hMem : ∀ place, place ∈ places ↔ place ∈ places') :
    places = places' := by
  have hNodup :
      ∀ {items : List Place}, items.Pairwise WalksBefore →
        items.Nodup := by
    intro items hItems
    apply hItems.imp
    rintro place rest hBefore rfl
    exact hBefore.asymm hBefore
  apply List.Perm.eq_of_pairwise _ h h'
  · exact
      (List.perm_ext_iff_of_nodup (hNodup h) (hNodup h')).mpr hMem
  · intro place rest _ _ hBefore hBefore'
    exact absurd hBefore' hBefore.asymm

end WalksBefore

/- The order of paths in a walk that starts from a path. -/
def Path.ListsBefore (p q r : Path) : Prop :=
  ∃ place rest,
    q = p.below place ∧ r = p.below rest ∧
      WalksBefore place rest

namespace Path.ListsBefore

variable {p q r : Path}
variable {name : String}

/- Of two paths one at most comes before the other. -/
theorem asymm
    (h : p.ListsBefore q r) :
    ¬ p.ListsBefore r q := by
  rcases h with ⟨place, rest, rfl, rfl, hOrder⟩
  rintro ⟨rest', place', hRest, hPlace, hOrder'⟩
  rw [Path.below_inj] at hRest hPlace
  subst hRest hPlace
  exact hOrder.asymm hOrder'

/- The order of paths below a path is that of their places. -/
theorem below_iff
    {place rest : Place} :
    p.ListsBefore (p.below place) (p.below rest) ↔
      WalksBefore place rest := by
  constructor
  · rintro ⟨place', rest', hPlace, hRest, hOrder⟩
    rw [Path.below_inj] at hPlace hRest
    rwa [hPlace, hRest]
  · intro hOrder
    exact ⟨place, rest, rfl, rfl, hOrder⟩

/- The order in a subdirectory is that from further up. -/
theorem of_join
    (h : (p.join name).ListsBefore q r) :
    p.ListsBefore q r := by
  rcases h with ⟨place, rest, rfl, rfl, hOrder⟩
  exact
    ⟨name :: place, name :: rest, (p.below_cons name place).symm,
      (p.below_cons name rest).symm, .inside name hOrder⟩

/- Paths in the order of a walk are all different. -/
theorem nodup
    {files : List Path}
    (h : files.Pairwise p.ListsBefore) :
    files.Nodup := by
  apply h.imp
  rintro q r hBefore rfl
  exact hBefore.asymm hBefore

end Path.ListsBefore

------------------------------------------------------------
-- Named Values in Order
------------------------------------------------------------

section Order

variable {α : Type}
variable {items : List (String × α)}

/- Ordering names loses nothing. -/
theorem mem_inOrder_iff
    {e : String × α} :
    e ∈ inOrder items ↔ e ∈ items :=
  List.mem_mergeSort

/- Names in order stay where they are. -/
theorem inOrder_eq_self
    (h : items.Pairwise fun a b => decide (a.1 ≤ b.1) = true) :
    inOrder items = items :=
  List.mergeSort_of_pairwise h

/- Different names are put strictly in order. -/
theorem inOrder_pairwise
    (h : (items.map Prod.fst).Nodup) :
    (inOrder items).Pairwise fun a b => a.1 < b.1 := by
  have hLe :
      (inOrder items).Pairwise
        fun a b => decide (a.1 ≤ b.1) = true := by
    apply List.pairwise_mergeSort
    · intro a b c hab hbc
      rw [decide_eq_true_eq] at hab hbc ⊢
      exact String.le_trans hab hbc
    · intro a b
      simpa using String.le_total a.1 b.1
  have hNe :
      (inOrder items).Pairwise fun a b => a.1 ≠ b.1 := by
    rw [← List.pairwise_map, ← List.nodup_iff_pairwise_ne]
    exact
      (((List.mergeSort_perm items _).map Prod.fst).nodup_iff).mpr
        h
  apply (hLe.and hNe).imp
  intro a b hBoth
  rw [decide_eq_true_eq] at hBoth
  by_contra hNot
  exact
    hBoth.2 (String.le_antisymm hBoth.1 (String.not_lt.mp hNot))

end Order

------------------------------------------------------------
-- Candidates
------------------------------------------------------------

/-
  A place below a node at a path that the walk lists: that of
  an entry which is no directory, without an excluded name in
  its path, in directories whose paths can be looked up.
-/
structure IsCandidate
    (f : FileFilter)
    (p : Path)
    (n : Node)
    (place : Place) : Prop where
  ne_nil : place ≠ []
  entry : ∃ m, n.at? place = some m ∧ m.isDirectory = false
  kept : f.excludes (p.below place).parts = false
  short :
    ∀ way name rest, place = way ++ name :: rest → way ≠ [] →
      (p.below way).isLong = false

namespace IsCandidate

variable {f : FileFilter}
variable {p : Path}
variable {n : Node}
variable {name : String}
variable {place : Place}

/- An entry of a directory is a candidate by its name alone. -/
theorem singleton_iff :
    IsCandidate f p n [name] ↔
      ∃ m, n.entry? name = some m ∧
        mayBeFile f p (name, m) = true := by
  have hEntry : n.at? [name] = n.entry? name := by
    rw [at?]
    cases n.entry? name <;> rfl
  have hMayBe :
      ∀ m, mayBeFile f p (name, m) = true ↔
        m.isDirectory = false ∧
          f.excludes (p.below [name]).parts = false := by
    intro m
    simp [mayBeFile, Path.join_eq_below]
  constructor
  · intro h
    rcases h.entry with ⟨m, hNode, hDirectory⟩
    exact
      ⟨m, hEntry ▸ hNode, (hMayBe m).mpr ⟨hDirectory, h.kept⟩⟩
  · rintro ⟨m, hNode, hBoth⟩
    rcases (hMayBe m).mp hBoth with ⟨hDirectory, hKept⟩
    refine
      ⟨by simp, ⟨m, hEntry.trans hNode, hDirectory⟩, hKept, ?_⟩
    intro way first rest hPlace hWay
    cases way with
    | nil => exact absurd rfl hWay
    | cons x way => simp at hPlace

/- Only a directory has candidates. -/
theorem isDirectory
    (h : IsCandidate f p n place) :
    n.isDirectory = true := by
  rcases List.exists_cons_of_ne_nil h.ne_nil with
    ⟨name, rest, rfl⟩
  rcases h.entry with ⟨m, hNode, _⟩
  rw [at?] at hNode
  rcases Option.bind_eq_some_iff.mp hNode with ⟨_, hEntry, _⟩
  rcases exists_entries_of_entry? hEntry with ⟨_, rfl, _⟩
  rfl

/- A candidate further down is one of a directory entered. -/
theorem cons_iff
    (hNil : place ≠ []) :
    IsCandidate f p n (name :: place) ↔
      ∃ m, n.entry? name = some m ∧
        isEntered f (p.join name) m = true ∧
          IsCandidate f (p.join name) m place := by
  have hEntered :
      ∀ m, isEntered f (p.join name) m = true ↔
        m.isDirectory = true ∧
          f.excludes (p.below [name]).parts = false ∧
            (p.below [name]).isLong = false := by
    intro m
    simp [isEntered, Path.join_eq_below, and_assoc]
  constructor
  · intro h
    rcases h.entry with ⟨k, hNode, hDirectory⟩
    rw [at?] at hNode
    rcases Option.bind_eq_some_iff.mp hNode with
      ⟨m, hEntry, hBelow⟩
    have hBelowIs : IsCandidate f (p.join name) m place := by
      refine ⟨hNil, ⟨k, hBelow, hDirectory⟩, ?_, ?_⟩
      · rw [← Path.below_cons]
        exact h.kept
      · intro way first after hPlace hWay
        rw [← Path.below_cons]
        exact
          h.short (name :: way) first after (by simp [hPlace])
            (by simp)
    refine ⟨m, hEntry, (hEntered m).mpr ⟨?_, ?_, ?_⟩, hBelowIs⟩
    · exact hBelowIs.isDirectory
    · have hKept := h.kept
      rw [← List.singleton_append] at hKept
      exact FileFilter.excludes_below_eq_false hKept
    · rcases List.exists_cons_of_ne_nil hNil with
        ⟨next, rest, rfl⟩
      exact h.short [name] next rest rfl (by simp)
  · rintro ⟨m, hEntry, hEnter, h⟩
    rcases (hEntered m).mp hEnter with ⟨_, _, hShort⟩
    rcases h.entry with ⟨k, hNode, hDirectory⟩
    refine ⟨by simp, ⟨k, ?_, hDirectory⟩, ?_, ?_⟩
    · rw [at?, hEntry]
      exact hNode
    · rw [Path.below_cons]
      exact h.kept
    · intro way first after hPlace hWay
      cases way with
      | nil => exact absurd rfl hWay
      | cons x way =>
          rw [List.cons_append, List.cons.injEq] at hPlace
          rcases hPlace with ⟨rfl, hPlace⟩
          cases way with
          | nil => exact hShort
          | cons y way =>
              rw [Path.below_cons]
              exact h.short (y :: way) first after hPlace (by simp)

end IsCandidate

------------------------------------------------------------
-- What the Walk Lists
------------------------------------------------------------

section Walk

variable {f : FileFilter}
variable {p q : Path}
variable {n : Node}

/- Nothing lies below what is no directory. -/
theorem candidatesBelow_eq_nil
    (h : n.isDirectory = false) :
    candidatesBelow f p n = [] := by
  cases n with
  | directory entries => cases h
  | file data => simp [candidatesBelow]
  | link target => simp [candidatesBelow]

/- The subdirectories that are entered, with what lies below. -/
theorem subdirectories_eq
    (f : FileFilter)
    (p : Path)
    (entries : List (String × Node)) :
    subdirectories f p entries =
      (entries.filter
          fun e => isEntered f (p.join e.1) e.2).map
        fun e => (e.1, candidatesBelow f (p.join e.1) e.2) := by
  induction entries with
  | nil => rfl
  | cons e rest ih =>
      rcases e with ⟨name, n⟩
      rw [subdirectories, ih, List.filter_cons]
      split <;> rfl

/- The candidates in a directory and those further down. -/
theorem mem_candidatesBelow_directory
    {entries : List (String × Node)} :
    q ∈ candidatesBelow f p (.directory entries) ↔
      (∃ e ∈ entries,
          mayBeFile f p e = true ∧ q = p.join e.1) ∨
        ∃ e ∈ entries,
          isEntered f (p.join e.1) e.2 = true ∧
            q ∈ candidatesBelow f (p.join e.1) e.2 := by
  rw [candidatesBelow, List.mem_append, List.mem_map,
    List.mem_flatMap, subdirectories_eq]
  apply or_congr
  · constructor
    · rintro ⟨e, hMem, rfl⟩
      rw [mem_inOrder_iff, List.mem_filter] at hMem
      exact ⟨e, hMem.1, hMem.2, rfl⟩
    · rintro ⟨e, hMem, hFile, rfl⟩
      refine ⟨e, ?_, rfl⟩
      rw [mem_inOrder_iff, List.mem_filter]
      exact ⟨hMem, hFile⟩
  · constructor
    · rintro ⟨pair, hMem, hBelow⟩
      rw [mem_inOrder_iff, List.mem_map] at hMem
      rcases hMem with ⟨e, hMem, rfl⟩
      rw [List.mem_filter] at hMem
      exact ⟨e, hMem.1, hMem.2, hBelow⟩
    · rintro ⟨e, hMem, hEnter, hBelow⟩
      refine ⟨(e.1, candidatesBelow f (p.join e.1) e.2), ?_, hBelow⟩
      rw [mem_inOrder_iff, List.mem_map]
      exact ⟨e, List.mem_filter.mpr ⟨hMem, hEnter⟩, rfl⟩

/-
  The walk lists the candidates and nothing else.  Cutting off
  directories on the way loses nothing that is not excluded.
-/
theorem mem_candidatesBelow_iff
    (hNode : n.WellFormed) :
    q ∈ candidatesBelow f p n ↔
      ∃ place, IsCandidate f p n place ∧ q = p.below place := by
  induction hNode generalizing p with
  | file data =>
      rw [candidatesBelow_eq_nil rfl]
      constructor
      · intro h
        cases h
      · rintro ⟨place, hPlace, _⟩
        cases hPlace.isDirectory
  | link target =>
      rw [candidatesBelow_eq_nil rfl]
      constructor
      · intro h
        cases h
      · rintro ⟨place, hPlace, _⟩
        cases hPlace.isDirectory
  | @directory entries nodup names below ih =>
      rw [mem_candidatesBelow_directory]
      constructor
      · rintro (⟨e, hMem, hFile, rfl⟩ | ⟨e, hMem, hEnter, hBelow⟩)
        · refine ⟨[e.1], ?_, rfl⟩
          rw [IsCandidate.singleton_iff]
          exact ⟨e.2, (lookup_eq_some_iff nodup).mpr hMem, hFile⟩
        · rcases (ih e hMem).mp hBelow with
            ⟨place, hPlace, rfl⟩
          refine ⟨e.1 :: place, ?_, (p.below_cons _ _).symm⟩
          rw [IsCandidate.cons_iff hPlace.ne_nil]
          exact
            ⟨e.2, (lookup_eq_some_iff nodup).mpr hMem, hEnter,
              hPlace⟩
      · rintro ⟨place, hPlace, rfl⟩
        rcases List.exists_cons_of_ne_nil hPlace.ne_nil with
          ⟨name, rest, rfl⟩
        cases rest with
        | nil =>
            rw [IsCandidate.singleton_iff] at hPlace
            rcases hPlace with ⟨m, hLookup, hFile⟩
            exact
              Or.inl
                ⟨(name, m), mem_of_lookup hLookup, hFile, rfl⟩
        | cons next rest =>
            rw [IsCandidate.cons_iff (by simp)] at hPlace
            rcases hPlace with ⟨m, hLookup, hEnter, hBelow⟩
            have hMem := mem_of_lookup hLookup
            refine Or.inr ⟨(name, m), hMem, hEnter, ?_⟩
            exact
              (ih (name, m) hMem).mpr
                ⟨next :: rest, hBelow, p.below_cons _ _⟩

/- A candidate below an entry lies two names down, or more. -/
theorem exists_eq_below_of_mem
    {name : String}
    (hNode : n.WellFormed)
    (h : q ∈ candidatesBelow f (p.join name) n) :
    ∃ next rest, q = p.below (name :: next :: rest) := by
  rcases (mem_candidatesBelow_iff hNode).mp h with
    ⟨place, hPlace, rfl⟩
  rcases List.exists_cons_of_ne_nil hPlace.ne_nil with
    ⟨next, rest, rfl⟩
  exact ⟨next, rest, (p.below_cons _ _).symm⟩

/- The walk lists every candidate once, and in order. -/
theorem candidatesBelow_pairwise
    (hNode : n.WellFormed) :
    (candidatesBelow f p n).Pairwise p.ListsBefore := by
  induction hNode generalizing p with
  | file data =>
      rw [candidatesBelow_eq_nil rfl]
      exact List.Pairwise.nil
  | link target =>
      rw [candidatesBelow_eq_nil rfl]
      exact List.Pairwise.nil
  | @directory entries nodup names below ih =>
      rw [candidatesBelow, subdirectories_eq, List.pairwise_append,
        List.pairwise_map, List.pairwise_flatMap]
      have hNames :
          ∀ keep : String × Node → Bool,
            ((entries.filter keep).map Prod.fst).Nodup := by
        intro keep
        exact nodup.sublist (List.filter_sublist.map Prod.fst)
      refine ⟨?_, ⟨?_, ?_⟩, ?_⟩
      · -- Files among each other.
        apply (inOrder_pairwise (hNames _)).imp
        intro a b hLt
        exact ⟨[a.1], [b.1], rfl, rfl, .files hLt⟩
      · -- Each subdirectory by itself.
        intro pair hMem
        rw [mem_inOrder_iff, List.mem_map] at hMem
        rcases hMem with ⟨e, hMem, rfl⟩
        apply (ih e (List.mem_of_mem_filter hMem)).imp
        exact Path.ListsBefore.of_join
      · -- Subdirectories among each other.
        have hDirectories :
            (((entries.filter
                fun e => isEntered f (p.join e.1) e.2).map
                  fun e =>
                    (e.1, candidatesBelow f (p.join e.1) e.2)).map
              Prod.fst).Nodup := by
          rw [List.map_map]
          exact hNames _
        apply (inOrder_pairwise hDirectories).imp_of_mem
        intro a b hMem hMem' hLt q hQ r hR
        rw [mem_inOrder_iff, List.mem_map] at hMem hMem'
        rcases hMem with ⟨d, hMem, rfl⟩
        rcases hMem' with ⟨e, hMem', rfl⟩
        rcases exists_eq_below_of_mem
            (below d (List.mem_of_mem_filter hMem)) hQ with
          ⟨x, rest, rfl⟩
        rcases exists_eq_below_of_mem
            (below e (List.mem_of_mem_filter hMem')) hR with
          ⟨y, rest', rfl⟩
        exact ⟨_, _, rfl, rfl, .directories hLt x y rest rest'⟩
      · -- Files before subdirectories.
        intro q hQ r hR
        rcases List.mem_map.mp hQ with ⟨d, _, rfl⟩
        rcases List.mem_flatMap.mp hR with ⟨pair, hMem, hR⟩
        rw [mem_inOrder_iff, List.mem_map] at hMem
        rcases hMem with ⟨e, hMem, rfl⟩
        rcases exists_eq_below_of_mem
            (below e (List.mem_of_mem_filter hMem)) hR with
          ⟨next, rest, rfl⟩
        exact ⟨_, _, rfl, rfl, .fileFirst d.1 e.1 next rest⟩

end Walk

/- A directory whose subdirectories hold no candidates. -/
theorem candidatesBelow_of_forall_eq_nil
    {f : FileFilter}
    {p : Path}
    {entries : List (String × Node)}
    (h :
      ∀ e ∈ entries, isEntered f (p.join e.1) e.2 = true →
        candidatesBelow f (p.join e.1) e.2 = []) :
    candidatesBelow f p (.directory entries) =
      (inOrder (entries.filter (mayBeFile f p))).map
        fun e => p.join e.1 := by
  have hNone :
      (inOrder (subdirectories f p entries)).flatMap Prod.snd =
        [] := by
    rw [List.flatMap_eq_nil_iff]
    intro pair hMem
    rw [mem_inOrder_iff, subdirectories_eq] at hMem
    rcases List.mem_map.mp hMem with ⟨e, hEntry, rfl⟩
    rw [List.mem_filter] at hEntry
    exact h e hEntry.1 hEntry.2
  rw [candidatesBelow, hNone, List.append_nil]

/- A directory with one entry. -/
theorem candidatesBelow_singleton
    (f : FileFilter)
    (p : Path)
    (name : String)
    (n : Node) :
    candidatesBelow f p (.directory [(name, n)]) =
      (if mayBeFile f p (name, n) then [p.join name] else []) ++
        (if isEntered f (p.join name) n then
          candidatesBelow f (p.join name) n
        else []) := by
  rw [candidatesBelow, List.filter_singleton, subdirectories,
    subdirectories]
  congr 1
  · cases mayBeFile f p (name, n) <;> simp [inOrder]
  · split <;> simp [inOrder]

end CommentLint
