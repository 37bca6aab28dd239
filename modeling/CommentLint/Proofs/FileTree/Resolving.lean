import CommentLint.Proofs.FileTree.Leading

/-
  Resolving paths that lead somewhere.

  Resolving goes into the target of a link before it goes on,
  remembers what links were resolved to, and gives up where
  links loop.  None of that is met where names lead anywhere:
  fewer links lie on the way through a target than on the way
  through the link, so that no link is met inside its own
  target.  The path that comes out is that of the place, if
  every link on the way can be read.

  Key definitions include:
    * `FileTree.DirectoryLinksFit`
    * `FileTree.LinksFit`
    * `FileTree.StandsFor`
    * `FileTree.ResolvesRight`
    * `FileTree.PendsBeyond`

  Key results include:
    * `FileTree.resolveNames_of_leads`
    * `FileTree.resolve_of_find`
    * `FileTree.resolve_of_find_linksFit`
    * `FileTree.isAbsolute_of_resolve`
-/

namespace CommentLint

open Node

/- Known links are looked up from the last that was added. -/
theorem KnownLinks.lookup_cons
    (known : KnownLinks)
    (p q : Path)
    (state : LinkState) :
    List.lookup p ((q, state) :: known) =
      if p = q then some state else known.lookup p := by
  rw [List.lookup_cons]
  by_cases h : p = q
  · simp [h]
  · have hNe : (p == q) = false := beq_false_of_ne h
    rw [hNe, if_neg h]

namespace FileTree

------------------------------------------------------------
-- Standing for a Place
------------------------------------------------------------

/-
  Links that lead to directories lie at paths that can be
  looked up.  Where links lead to files only, that is so.
-/
def DirectoryLinksFit (t : FileTree) : Prop :=
  ∀ place name target links there,
    t.root.at? (place ++ [name]) = some (.link target) →
      t.root.Leads (startOf target place) (pieces target) links
          there →
        t.root.HasDirectory there →
          (pathOf (place ++ [name])).isLong = false

/- Where links lead to, there are files and no directories. -/
def LinksFilesOnly (t : FileTree) : Prop :=
  ∀ place name target links there,
    t.root.at? (place ++ [name]) = some (.link target) →
      t.root.Leads (startOf target place) (pieces target) links
          there →
        ¬ t.root.HasDirectory there

/- Links that lead to no directory need not be read. -/
theorem directoryLinksFit_of_fileLinks
    {t : FileTree}
    (h : t.LinksFilesOnly) :
    t.DirectoryLinksFit := by
  intro place name target links there hEntry hLeads hDirectory
  exact
    absurd hDirectory
      (h place name target links there hEntry hLeads)

/-
  A place of the tree stands for itself.  So does a link that
  cannot be read for what is no directory.
-/
inductive StandsFor (t : FileTree) : Place → Place → Prop where
| place
    {there : Place}
    {n : Node}
    (hNode : t.root.at? there = some n) :
    StandsFor t there there
| link
    {place there : Place}
    {n : Node}
    {links : Nat}
    (hNode : t.root.at? place = some n)
    (hLong : (pathOf place).isLong = true)
    (hFile : ¬ t.root.HasDirectory there)
    (hLeads : t.root.Leads [] place links there) :
    StandsFor t place there

namespace StandsFor

variable {t : FileTree}
variable {place there there' : Place}

/- What stands for another place is a place itself. -/
theorem exists_at?
    (h : t.StandsFor place there) :
    ∃ n, t.root.at? place = some n := by
  cases h with
  | place hNode => exact ⟨_, hNode⟩
  | link hNode _ _ _ => exact ⟨_, hNode⟩

/- A directory is stood for by its own place. -/
theorem eq_of_hasDirectory
    (h : t.StandsFor place there)
    (hDirectory : t.root.HasDirectory there) :
    place = there := by
  cases h with
  | place _ => rfl
  | link _ _ hFile _ => exact absurd hDirectory hFile

end StandsFor

------------------------------------------------------------
-- Known Links
------------------------------------------------------------

section Known

variable {t : FileTree}
variable {known : KnownLinks}
variable {place middle : Place}
variable {name target : String}
variable {inner : Nat}

/- What links were resolved to stands for where they lead. -/
def ResolvesRight
    (t : FileTree)
    (known : KnownLinks) : Prop :=
  ∀ place name target p links there,
    known.lookup (pathOf (place ++ [name])) =
        some (.resolved p) →
      t.root.at? (place ++ [name]) = some (.link target) →
        t.root.Leads (startOf target place) (pieces target)
            links there →
          ∃ q, p = pathOf q ∧ t.StandsFor q there

/-
  More links than a number lie on the way through the targets
  that are being resolved, or as many.
-/
def PendsBeyond
    (t : FileTree)
    (known : KnownLinks)
    (bound : Nat) : Prop :=
  ∀ place name target links there,
    known.lookup (pathOf (place ++ [name])) = some .pending →
      t.root.at? (place ++ [name]) = some (.link target) →
        t.root.Leads (startOf target place) (pieces target)
            links there →
          bound ≤ links

/- Nothing that is being resolved is new. -/
def KeepsPending (known known' : KnownLinks) : Prop :=
  ∀ p, known'.lookup p = some .pending →
    known.lookup p = some .pending

/- The paths of two entries are the same for one entry only. -/
theorem pathOf_concat_inj
    {place' : Place}
    {name' : String}
    (h :
      pathOf (place ++ [name]) = pathOf (place' ++ [name'])) :
    place = place' ∧ name = name' := by
  have hNames := congrArg Path.names h
  simpa using List.append_inj' hNames rfl

/- With fewer links to come, what is being resolved is no nearer. -/
theorem PendsBeyond.mono
    {bound bound' : Nat}
    (h : t.PendsBeyond known bound)
    (hLe : bound' ≤ bound) :
    t.PendsBeyond known bound' := by
  intro place name target links there hLookup hEntry hLeads
  exact le_trans hLe (h _ _ _ _ _ hLookup hEntry hLeads)

/- Nothing new is being resolved after it has been. -/
theorem PendsBeyond.of_keepsPending
    {known' : KnownLinks}
    {bound : Nat}
    (h : t.PendsBeyond known bound)
    (hKeeps : KeepsPending known known') :
    t.PendsBeyond known' bound := by
  intro place name target links there hLookup
  exact h _ _ _ _ _ (hKeeps _ hLookup)

/- A link may be resolved while those around it are. -/
theorem PendsBeyond.cons_pending
    (h : t.PendsBeyond known inner)
    (hEntry : t.root.at? (place ++ [name]) = some (.link target))
    (hTarget :
      t.root.Leads (startOf target place) (pieces target) inner
        middle) :
    t.PendsBeyond
      ((pathOf (place ++ [name]), .pending) :: known) inner := by
  intro place' name' target' links there hLookup hEntry' hLeads
  rw [KnownLinks.lookup_cons] at hLookup
  split at hLookup
  case isTrue hSame =>
    rcases pathOf_concat_inj hSame with ⟨rfl, rfl⟩
    rw [hEntry] at hEntry'
    cases hEntry'
    exact le_of_eq (hTarget.unique hLeads).1
  case isFalse => exact h _ _ _ _ _ hLookup hEntry' hLeads

/- A link that is being resolved is not resolved yet. -/
theorem ResolvesRight.cons_pending
    (h : t.ResolvesRight known)
    (p : Path) :
    t.ResolvesRight ((p, .pending) :: known) := by
  intro place name target q links there hLookup
  rw [KnownLinks.lookup_cons] at hLookup
  split at hLookup
  case isTrue => cases hLookup
  case isFalse => exact h _ _ _ _ _ _ hLookup

/- What a link was resolved to is remembered. -/
theorem ResolvesRight.cons_resolved
    {q : Place}
    (h : t.ResolvesRight known)
    (hEntry : t.root.at? (place ++ [name]) = some (.link target))
    (hTarget :
      t.root.Leads (startOf target place) (pieces target) inner
        middle)
    (hStands : t.StandsFor q middle) :
    t.ResolvesRight
      ((pathOf (place ++ [name]), .resolved (pathOf q)) ::
        known) := by
  intro place' name' target' p links there hLookup hEntry' hLeads
  rw [KnownLinks.lookup_cons] at hLookup
  split at hLookup
  case isTrue hSame =>
    cases hLookup
    rcases pathOf_concat_inj hSame with ⟨rfl, rfl⟩
    rw [hEntry] at hEntry'
    cases hEntry'
    rcases hTarget.unique hLeads with ⟨_, rfl⟩
    exact ⟨q, rfl, hStands⟩
  case isFalse => exact h _ _ _ _ _ _ hLookup hEntry' hLeads

/- A link that was resolved is no longer being resolved. -/
theorem KeepsPending.cons_resolved
    {known' : KnownLinks}
    {p q : Path}
    (h : KeepsPending ((p, .pending) :: known) known') :
    KeepsPending known ((p, .resolved q) :: known') := by
  intro r hLookup
  rw [KnownLinks.lookup_cons] at hLookup
  split at hLookup
  case isTrue => cases hLookup
  case isFalse hNe =>
    have hPending := h r hLookup
    rwa [KnownLinks.lookup_cons, if_neg hNe] at hPending

end Known

------------------------------------------------------------
-- Resolving Names
------------------------------------------------------------

section Names

variable {t : FileTree}
variable {place there : Place}
variable {names rest : List String}
variable {name target : String}
variable {links depth : Nat}
variable {known : KnownLinks}

/- The path that resolving a target starts from. -/
theorem pathOf_startOf
    (target : String)
    (place : Place) :
    (if (Path.ofString target).isAbsolute then ⟨.root, []⟩
      else pathOf place) =
        pathOf (startOf target place) := by
  unfold startOf
  split <;> rfl

/- What resolving names gives that lead somewhere. -/
def ResolvesTo
    (t : FileTree)
    (depth : Nat)
    (known : KnownLinks)
    (place : Place)
    (names : List String)
    (there : Place) : Prop :=
  ∃ known' q,
    t.resolveNames (t.resolveLink depth) known (pathOf place)
        names =
      (known', .done (pathOf q)) ∧
        t.StandsFor q there ∧ t.ResolvesRight known' ∧
          KeepsPending known known'

/- A name is resolved that is not that of a link. -/
theorem resolveNames_of_linkAt?_eq_none
    {enter :
      KnownLinks → Path → Path → String →
        KnownLinks × Resolution}
    (hName : IsEntryName name)
    (hLink : t.linkAt? (pathOf (place ++ [name])) = none) :
    t.resolveNames enter known (pathOf place) (name :: rest) =
      t.resolveNames enter known (pathOf (place ++ [name]))
        rest := by
  have hJoin :
      (pathOf place).join name = pathOf (place ++ [name]) :=
    rfl
  rw [resolveNames, if_neg (by simp [hName.isName]),
    if_neg hName.ne_up, if_neg (by simp [hName.hasNull])]
  dsimp only
  rw [hJoin, hLink]

/-
  Names are resolved to what stands for the place where they
  lead.  The induction is on the way there, targets of links
  included.
-/
theorem resolveNames_of_leads
    (hTree : t.WellFormed)
    (hFit : t.DirectoryLinksFit)
    (h : t.root.Leads place names links there)
    (hPlace : ∃ n, t.root.at? place = some n)
    (hDepth : links ≤ depth)
    (hRight : t.ResolvesRight known)
    (hPends : t.PendsBeyond known links) :
    t.ResolvesTo depth known place names there := by
  induction h generalizing depth known with
  | here place =>
      rcases hPlace with ⟨n, hPlace⟩
      exact
        ⟨known, place, rfl, .place hPlace, hRight, fun _ => id⟩
  | skip hHere hName hRest ih =>
      rcases ih hPlace hDepth hRight hPends with
        ⟨known', q, hResolve, hRest⟩
      refine ⟨known', q, ?_, hRest⟩
      rw [resolveNames, if_pos (by simp [hName])]
      exact hResolve
  | up hHere hRest ih =>
      rcases hHere.dropLast with ⟨entries, hAbove⟩
      rcases ih ⟨_, hAbove⟩ hDepth hRight hPends with
        ⟨known', q, hResolve, hRest⟩
      refine ⟨known', q, ?_, hRest⟩
      rw [resolveNames, if_neg (by decide), if_pos rfl]
      exact hResolve
  | @directory place there name rest links hName hUp hEntry
      hRest ih =>
      rcases hEntry with ⟨entries, hEntry⟩
      rcases ih ⟨_, hEntry⟩ hDepth hRight hPends with
        ⟨known', q, hResolve, hRest⟩
      refine ⟨known', q, ?_, hRest⟩
      rw [resolveNames_of_linkAt?_eq_none
        (hTree.root.isEntryName hEntry)
        (linkAt?_pathOf_eq_none hTree hEntry (by simp))]
      exact hResolve
  | @file place name data hName hUp hEntry =>
      refine
        ⟨known, place ++ [name], ?_, .place hEntry, hRight,
          fun _ => id⟩
      rw [resolveNames_of_linkAt?_eq_none
        (hTree.root.isEntryName hEntry)
        (linkAt?_pathOf_eq_none hTree hEntry (by simp))]
      rfl
  | @link place middle there name target rest inner outer hName
      hUp hEntry hTarget hRest ihTarget ihRest =>
      have hEntryName := hTree.root.isEntryName hEntry
      have hHere := hasDirectory_of_at?_append hEntry
      by_cases hLong : (pathOf (place ++ [name])).isLong = true
      · -- A link that cannot be read is kept.  It is no
        -- directory, so that no name follows it.
        have hFile : ¬ t.root.HasDirectory middle := by
          intro hDirectory
          have hShort :=
            hFit _ _ _ _ _ hEntry hTarget hDirectory
          simp [hShort] at hLong
        rcases hRest.eq_nil hFile with ⟨rfl, rfl, rfl⟩
        have hLeads :=
          Leads.link hName hUp hEntry hTarget (.here there)
        refine
          ⟨known, place ++ [name], ?_,
            .link hEntry hLong hFile
              (hLeads.of_at? [] hTree.root hHere),
            hRight, fun _ => id⟩
        rw [resolveNames_of_linkAt?_eq_none hEntryName
          (linkAt?_of_isLong hLong)]
        rfl
      · have hRead :=
          linkAt?_pathOf hTree hEntry (by simpa using hLong)
        have hJoin :
            (pathOf place).join name = pathOf (place ++ [name]) :=
          rfl
        -- Where names follow, the link leads to a directory,
        -- and that stands for itself.
        have hOn :
            ∀ {known₁ q₁}, t.StandsFor q₁ middle →
              t.ResolvesRight known₁ →
                t.PendsBeyond known₁ outer →
                  t.ResolvesTo depth known₁ q₁ rest there := by
          intro known₁ q₁ hStands hRight₁ hPends₁
          cases rest with
          | nil =>
              cases hRest
              exact
                ⟨known₁, q₁, rfl, hStands, hRight₁, fun _ => id⟩
          | cons next rest =>
              have hSame :=
                hStands.eq_of_hasDirectory hRest.hasDirectory
              subst hSame
              exact
                ihRest hStands.exists_at? (by omega) hRight₁
                  hPends₁
        unfold ResolvesTo
        rw [resolveNames, if_neg (by simp [hName]), if_neg hUp,
          if_neg (by simp [hEntryName.hasNull])]
        dsimp only
        rw [hJoin, hRead]
        cases hKnown : known.lookup (pathOf (place ++ [name])) with
        | some state =>
            cases state with
            | resolved p =>
                rcases hRight _ _ _ _ _ _ hKnown hEntry
                    hTarget with
                  ⟨q₁, rfl, hStands⟩
                exact
                  hOn hStands hRight (hPends.mono (by omega))
            | pending =>
                have hBound :=
                  hPends _ _ _ _ _ hKnown hEntry hTarget
                omega
        | none =>
            cases depth with
            | zero => omega
            | succ depth =>
                have hStart :
                    ∃ n, t.root.at? (startOf target place) =
                      some n := by
                  unfold startOf
                  split
                  · exact ⟨_, rfl⟩
                  · rcases hHere with ⟨entries, hHere⟩
                    exact ⟨_, hHere⟩
                have hInner : inner ≤ inner + outer + 1 := by omega
                have hOuter : outer ≤ inner + outer + 1 := by omega
                have hDepth' : inner ≤ depth := by omega
                rcases ihTarget hStart hDepth'
                    (hRight.cons_pending _)
                    ((hPends.mono hInner).cons_pending hEntry
                      hTarget) with
                  ⟨known₁, q₁, hResolve, hStands, hRight₁,
                    hKeeps⟩
                have hKeeps' :
                    KeepsPending known
                      ((pathOf (place ++ [name]),
                        .resolved (pathOf q₁)) :: known₁) :=
                  hKeeps.cons_resolved
                rcases hOn hStands
                    (hRight₁.cons_resolved hEntry hTarget
                      hStands)
                    ((hPends.mono hOuter).of_keepsPending
                      hKeeps') with
                  ⟨known', q, hRestOf, hStands', hRight', hKept⟩
                refine
                  ⟨known', q, ?_, hStands', hRight',
                    fun p hLookup => hKeeps' p (hKept p hLookup)⟩
                dsimp only
                rw [resolveLink, pathOf_startOf, hResolve]
                exact hRestOf

end Names

------------------------------------------------------------
-- Resolving Paths
------------------------------------------------------------

section Paths

variable {t : FileTree}
variable {p : Path}
variable {place : Place}
variable {n : Node}

/- What stands for a place is kept as it is. -/
theorem unlooped_pathOf
    {q : Place}
    (hTree : t.WellFormed)
    (hPlace : t.root.at? place = some n)
    (hLink : ∀ target, n ≠ .link target)
    (h : t.StandsFor q place) :
    t.unlooped (pathOf q) = .ok (pathOf q) := by
  unfold unlooped
  by_cases hLong : (pathOf q).isLong = true
  · have hTarget :
        t.target .follow (pathOf q) = .error .nameTooLong := by
      unfold FileTree.target
      rw [if_pos hLong]
    rw [find, hTarget]
  · have hShort : (pathOf q).isLong = false := by simpa using hLong
    cases h with
    | place _ => rw [find_pathOf hTree hPlace hLink hShort]
    | link _ hLong' _ _ => exact absurd hLong' hLong

/-
  An absolute path that is found is resolved to the path of
  what stands for the place that it leads to.
-/
theorem resolve_of_find
    (hTree : t.WellFormed)
    (hFit : t.DirectoryLinksFit)
    (hAbsolute : p.isAbsolute = true)
    (h : t.find p = .ok (place, n)) :
    ∃ q, t.resolve p = .ok (pathOf q) ∧ t.StandsFor q place := by
  rcases leads_of_find hTree h with
    ⟨links, hBound, hLeads, hPlace, hLink⟩
  have hLimit : linkLimit ≤ nestingLimit := by decide
  rw [start, if_pos hAbsolute] at hLeads
  have hRight : t.ResolvesRight [] := by
    intro place name target p links there hLookup
    cases hLookup
  have hPends : t.PendsBeyond [] links := by
    intro place name target links there hLookup
    cases hLookup
  rcases resolveNames_of_leads hTree hFit hLeads ⟨_, rfl⟩
      (le_trans hBound hLimit) hRight hPends with
    ⟨known, q, hResolve, hStands, _⟩
  refine ⟨q, ?_, hStands⟩
  have hResolution : t.resolution p = .done (pathOf q) := by
    unfold resolution
    rw [if_pos hAbsolute]
    exact congrArg Prod.snd hResolve
  rcases hStands.exists_at? with ⟨m, hNode⟩
  rw [resolve, hResolution]
  dsimp only
  rw [t.absolute_pathOf (hTree.root.up_not_mem hNode)]
  exact unlooped_pathOf hTree hPlace hLink hStands

/- What stands for a place leads there. -/
theorem StandsFor.exists_leads
    {q : Place}
    (hTree : t.WellFormed)
    (hLink : ∀ target, t.root.at? place ≠ some (.link target))
    (h : t.StandsFor q place) :
    ∃ links, t.root.Leads [] q links place := by
  cases h with
  | place hNode =>
      refine ⟨0, Leads.of_place hTree.root hNode ?_⟩
      rintro target rfl
      exact hLink target hNode
  | link _ _ _ hLeads => exact ⟨_, hLeads⟩

/- A path stands for one place only. -/
theorem StandsFor.unique
    {q place' : Place}
    (hTree : t.WellFormed)
    (hLink : ∀ target, t.root.at? place ≠ some (.link target))
    (hLink' : ∀ target, t.root.at? place' ≠ some (.link target))
    (h : t.StandsFor q place)
    (h' : t.StandsFor q place') :
    place = place' := by
  rcases h.exists_leads hTree hLink with ⟨links, hLeads⟩
  rcases h'.exists_leads hTree hLink' with ⟨links', hLeads'⟩
  exact (hLeads.unique hLeads').2

/- Every link lies at a path that can be looked up. -/
def LinksFit (t : FileTree) : Prop :=
  ∀ place target,
    t.root.at? place = some (.link target) →
      (pathOf place).isLong = false

/- Where every link can be read, those to directories can. -/
theorem LinksFit.directoryLinksFit
    (h : t.LinksFit) :
    t.DirectoryLinksFit := by
  intro place name target links there hEntry _ _
  exact h (place ++ [name]) target hEntry

/- In a tree of short paths every link can be read. -/
theorem linksFit_of_places
    (h : ∀ e ∈ t.root.places, (pathOf e.1).isLong = false) :
    t.LinksFit := by
  intro place target hEntry
  exact h (place, .link target) (mem_places_of_at? hEntry)

/- Where every link can be read, places stand for themselves. -/
theorem StandsFor.eq_of_linksFit
    {q there : Place}
    (hTree : t.WellFormed)
    (hFit : t.LinksFit)
    (h : t.StandsFor q there) :
    q = there := by
  cases h with
  | place _ => rfl
  | link hNode hLong _ hLeads =>
      have hHere :=
        Leads.of_place hTree.root hNode
          (by
            rintro target rfl
            simp [hFit _ _ hNode] at hLong)
      exact (hHere.unique hLeads).2

/- Where every link can be read, a path is resolved to its place. -/
theorem resolve_of_find_linksFit
    (hTree : t.WellFormed)
    (hFit : t.LinksFit)
    (hAbsolute : p.isAbsolute = true)
    (h : t.find p = .ok (place, n)) :
    t.resolve p = .ok (pathOf place) := by
  rcases resolve_of_find hTree hFit.directoryLinksFit hAbsolute h
    with ⟨q, hResolve, hStands⟩
  rw [hResolve, hStands.eq_of_linksFit hTree hFit]

/- A path that does not loop stays as it is. -/
theorem eq_of_unlooped
    {q : Path}
    (h : t.unlooped p = .ok q) :
    q = p := by
  unfold unlooped at h
  split at h
  · cases h
  · cases h
    rfl

/- What is made absolute starts at the root. -/
theorem isAbsolute_absolute
    (t : FileTree)
    (p : Path) :
    (t.absolute p).isAbsolute = true := by
  change ((pathOf t.workplace).append p).isAbsolute = true
  unfold Path.append
  split
  case isTrue hRoot => exact hRoot
  case isFalse => rfl

/- What resolving gives is absolute. -/
theorem isAbsolute_of_resolve
    {q : Path}
    (h : t.resolve p = .ok q) :
    q.isAbsolute = true := by
  unfold resolve at h
  split at h
  case h_1 => cases h
  case h_2 => cases h
  case h_3 r _ =>
    rw [eq_of_unlooped h]
    exact t.isAbsolute_absolute r
  case h_4 r _ =>
    rw [eq_of_unlooped h]
    rcases
      Path.exists_text_of_isAbsolute (t.isAbsolute_absolute r)
      with ⟨tail, hText⟩
    unfold Path.untilNull
    rw [hText, List.takeWhile_cons, if_pos (by decide)]
    unfold Path.ofString Path.isAbsolute
    rw [String.toList_ofList]
    dsimp only
    unfold Path.anchorOf
    split <;> simp_all

end Paths

end FileTree

end CommentLint
