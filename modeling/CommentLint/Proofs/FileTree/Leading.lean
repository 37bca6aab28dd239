import CommentLint.Proofs.FileTree.WellFormed

/-
  Where names lead.

  Names lead from a place to another by way of directories
  and links, limits of length and number left aside.  They
  lead to one place only, by a fixed number of links.  What a
  lookup finds is where the names of the path lead.

  Key definitions include:
    * `Node.Leads`
    * `FileTree.start`

  Key results include:
    * `Node.Leads.unique`
    * `FileTree.leads_of_find`
    * `FileTree.find_below`
-/

namespace CommentLint

namespace Node

------------------------------------------------------------
-- Leading
------------------------------------------------------------

/-
  Names that lead from a place to another, with the number of
  links on the way.  Nothing follows the name of a file.
-/
inductive Leads (root : Node) :
    Place → List String → Nat → Place → Prop where
| here (place : Place) : Leads root place [] 0 place
| skip
    {place there : Place}
    {name : String}
    {rest : List String}
    {links : Nat}
    (hHere : root.HasDirectory place)
    (hName : Path.isName name.toList = false)
    (hRest : Leads root place rest links there) :
    Leads root place (name :: rest) links there
| up
    {place there : Place}
    {rest : List String}
    {links : Nat}
    (hHere : root.HasDirectory place)
    (hRest : Leads root place.dropLast rest links there) :
    Leads root place (".." :: rest) links there
| directory
    {place there : Place}
    {name : String}
    {rest : List String}
    {links : Nat}
    (hName : Path.isName name.toList = true)
    (hUp : name ≠ "..")
    (hEntry : root.HasDirectory (place ++ [name]))
    (hRest : Leads root (place ++ [name]) rest links there) :
    Leads root place (name :: rest) links there
| file
    {place : Place}
    {name : String}
    {data : Bytes}
    (hName : Path.isName name.toList = true)
    (hUp : name ≠ "..")
    (hEntry : root.at? (place ++ [name]) = some (.file data)) :
    Leads root place [name] 0 (place ++ [name])
| link
    {place middle there : Place}
    {name target : String}
    {rest : List String}
    {inner outer : Nat}
    (hName : Path.isName name.toList = true)
    (hUp : name ≠ "..")
    (hEntry :
      root.at? (place ++ [name]) = some (.link target))
    (hTarget :
      Leads root (startOf target place) (pieces target) inner
        middle)
    (hRest : Leads root middle rest outer there) :
    Leads root place (name :: rest) (inner + outer + 1) there

namespace Leads

variable {root n : Node}
variable {place there there' middle : Place}
variable {name target : String}
variable {names rest : List String}
variable {links links' : Nat}

/- Names are looked up in a directory. -/
theorem hasDirectory
    (h : root.Leads place (name :: rest) links there) :
    root.HasDirectory place := by
  cases h with
  | skip hHere _ _ => exact hHere
  | up hHere _ => exact hHere
  | directory _ _ hEntry _ =>
      rcases hEntry with ⟨entries, hEntry⟩
      exact hasDirectory_of_at?_append hEntry
  | file _ _ hEntry => exact hasDirectory_of_at?_append hEntry
  | link _ _ hEntry _ _ =>
      exact hasDirectory_of_at?_append hEntry

/- No names follow where there is no directory. -/
theorem eq_nil
    (h : root.Leads place names links there)
    (hNot : ¬ root.HasDirectory place) :
    names = [] ∧ links = 0 ∧ there = place := by
  cases names with
  | nil =>
      cases h
      exact ⟨rfl, rfl, rfl⟩
  | cons name rest => exact absurd h.hasDirectory hNot

/- Names lead to one place, by one number of links. -/
theorem unique
    (h : root.Leads place names links there)
    (h' : root.Leads place names links' there') :
    links = links' ∧ there = there' := by
  induction h generalizing links' there' with
  | here place =>
      cases h'
      exact ⟨rfl, rfl⟩
  | skip hHere hName hRest ih =>
      cases h' with
      | skip _ _ hRest' => exact ih hRest'
      | up _ _ => exact absurd hName (by decide)
      | directory hName' _ _ _ => simp [hName'] at hName
      | file hName' _ _ => simp [hName'] at hName
      | link hName' _ _ _ _ => simp [hName'] at hName
  | up hHere hRest ih =>
      cases h' with
      | skip _ hName _ => exact absurd hName (by decide)
      | up _ hRest' => exact ih hRest'
      | directory _ hUp _ _ => exact absurd rfl hUp
      | file _ hUp _ => exact absurd rfl hUp
      | link _ hUp _ _ _ => exact absurd rfl hUp
  | directory hName hUp hEntry hRest ih =>
      rcases hEntry with ⟨entries, hEntry⟩
      cases h' with
      | skip _ hName' _ => simp [hName'] at hName
      | up _ _ => exact absurd rfl hUp
      | directory _ _ _ hRest' => exact ih hRest'
      | file _ _ hEntry' => simp [hEntry'] at hEntry
      | link _ _ hEntry' _ _ => simp [hEntry'] at hEntry
  | file hName hUp hEntry =>
      cases h' with
      | skip _ hName' _ => simp [hName'] at hName
      | up _ _ => exact absurd rfl hUp
      | directory _ _ hEntry' _ =>
          rcases hEntry' with ⟨entries, hEntry'⟩
          simp [hEntry'] at hEntry
      | file _ _ _ => exact ⟨rfl, rfl⟩
      | link _ _ hEntry' _ _ => simp [hEntry'] at hEntry
  | link hName hUp hEntry hTarget hRest ihTarget ihRest =>
      cases h' with
      | skip _ hName' _ => simp [hName'] at hName
      | up _ _ => exact absurd rfl hUp
      | directory _ _ hEntry' _ =>
          rcases hEntry' with ⟨entries, hEntry'⟩
          simp [hEntry'] at hEntry
      | file _ _ hEntry' => simp [hEntry'] at hEntry
      | link _ _ hEntry' hTarget' hRest' =>
          rw [hEntry] at hEntry'
          cases hEntry'
          rcases ihTarget hTarget' with ⟨rfl, rfl⟩
          rcases ihRest hRest' with ⟨rfl, rfl⟩
          exact ⟨rfl, rfl⟩

/- The first of some names lead to where the others start. -/
theorem of_append
    (h : root.Leads place (names ++ rest) links there) :
    ∃ middle inner outer,
      root.Leads place names inner middle ∧
        root.Leads middle rest outer there ∧
          inner + outer = links := by
  induction names generalizing place links with
  | nil => exact ⟨place, 0, links, .here place, h, by omega⟩
  | cons name names ih =>
      rw [List.cons_append] at h
      generalize hTail : names ++ rest = tail at h
      cases h with
      | skip hHere hName hRest =>
          rcases ih (hTail ▸ hRest) with
            ⟨middle, inner, outer, hFirst, hLast, hSum⟩
          exact
            ⟨middle, inner, outer, .skip hHere hName hFirst,
              hLast, hSum⟩
      | up hHere hRest =>
          rcases ih (hTail ▸ hRest) with
            ⟨middle, inner, outer, hFirst, hLast, hSum⟩
          exact
            ⟨middle, inner, outer, .up hHere hFirst, hLast, hSum⟩
      | directory hName hUp hEntry hRest =>
          rcases ih (hTail ▸ hRest) with
            ⟨middle, inner, outer, hFirst, hLast, hSum⟩
          exact
            ⟨middle, inner, outer,
              .directory hName hUp hEntry hFirst, hLast, hSum⟩
      | file hName hUp hEntry =>
          rcases List.append_eq_nil_iff.mp hTail with ⟨rfl, rfl⟩
          exact
            ⟨_, 0, 0, .file hName hUp hEntry, .here _, rfl⟩
      | link hName hUp hEntry hTarget hRest =>
          rcases ih (hTail ▸ hRest) with
            ⟨middle, inner, outer, hFirst, hLast, hSum⟩
          exact
            ⟨middle, _, outer,
              .link hName hUp hEntry hTarget hFirst, hLast,
              by omega⟩

/- Names on the way are no names, `..` or names of entries. -/
theorem isEntryName_of_mem
    (hRoot : root.WellFormed)
    (h : root.Leads place names links there)
    (hMem : name ∈ names) :
    Path.isName name.toList = false ∨ name = ".." ∨
      IsEntryName name := by
  induction h with
  | here place => cases hMem
  | skip _ hName _ ih =>
      rcases List.mem_cons.mp hMem with rfl | hMem
      · exact Or.inl hName
      · exact ih hMem
  | up _ _ ih =>
      rcases List.mem_cons.mp hMem with rfl | hMem
      · exact Or.inr (Or.inl rfl)
      · exact ih hMem
  | directory _ _ hEntry _ ih =>
      rcases List.mem_cons.mp hMem with rfl | hMem
      · rcases hEntry with ⟨entries, hEntry⟩
        exact Or.inr (Or.inr (hRoot.isEntryName hEntry))
      · exact ih hMem
  | file _ _ hEntry =>
      rcases List.mem_singleton.mp hMem with rfl
      exact Or.inr (Or.inr (hRoot.isEntryName hEntry))
  | link _ _ hEntry _ _ _ ih =>
      rcases List.mem_cons.mp hMem with rfl | hMem
      · exact Or.inr (Or.inr (hRoot.isEntryName hEntry))
      · exact ih hMem

/- Names of directories lead along a place, without links. -/
theorem of_at?
    (place : Place)
    (hRoot : root.WellFormed)
    (hDirectory : root.HasDirectory (place ++ rest))
    (h : root.Leads (place ++ rest) names links there) :
    root.Leads place (rest ++ names) links there := by
  induction rest generalizing place with
  | nil => rwa [List.append_nil] at h
  | cons name rest ih =>
      rcases hDirectory with ⟨entries, hPlace⟩
      have hName := hRoot.isEntryName hPlace
      rw [List.append_cons] at h hPlace
      have hEntry : root.HasDirectory (place ++ [name]) := by
        cases rest with
        | nil => exact ⟨entries, by simpa using hPlace⟩
        | cons next rest =>
            exact hasDirectory_of_at?_append hPlace
      exact
        .directory hName.isName hName.ne_up hEntry
          (ih _ ⟨entries, hPlace⟩ h)

/- A place leads to itself, where no link stands. -/
theorem of_place
    (hRoot : root.WellFormed)
    (h : root.at? place = some n)
    (hLink : ∀ target, n ≠ .link target) :
    root.Leads [] place 0 place := by
  cases n with
  | directory entries =>
      have hLeads :=
        of_at? [] hRoot ⟨entries, h⟩ (.here place)
      rwa [List.append_nil] at hLeads
  | file data =>
      rcases List.eq_nil_or_concat place with
        rfl | ⟨above, name, rfl⟩
      · exact .here []
      · rw [List.concat_eq_append] at h ⊢
        have hName := hRoot.isEntryName h
        exact
          of_at? [] hRoot (hasDirectory_of_at?_append h)
            (.file hName.isName hName.ne_up h)
  | link target => exact absurd rfl (hLink target)

end Leads

------------------------------------------------------------
-- Names of Targets
------------------------------------------------------------

/- The names that a lookup goes along, empty ones left out. -/
def keptNames (names : List String) : List String :=
  names.filter (· != "") ++
    (if names.getLast? = some "" then [""] else [])

/- Names of which some are kept are not all left out. -/
theorem keptNames_ne_nil
    {names : List String}
    (h : names ≠ []) :
    keptNames names ≠ [] := by
  intro hNil
  rcases List.append_eq_nil_iff.mp hNil with ⟨hFilter, hLast⟩
  rw [List.filter_eq_nil_iff] at hFilter
  have hMem := List.getLast_mem h
  have hEmpty : names.getLast h = "" := by
    simpa using hFilter _ hMem
  rw [List.getLast?_eq_some_getLast h, hEmpty, if_pos rfl]
    at hLast
  cases hLast

/- What follows a name is kept as it is kept alone. -/
theorem keptNames_cons_cons
    (name next : String)
    (rest : List String) :
    keptNames (name :: next :: rest) =
      if name = "" then keptNames (next :: rest)
      else name :: keptNames (next :: rest) := by
  unfold keptNames
  rw [List.getLast?_cons_cons, List.filter_cons]
  by_cases h : name = "" <;> simp [h]

/- Empty names do not change where names lead. -/
theorem Leads.of_keptNames
    {root : Node}
    {place there : Place}
    {names : List String}
    {links : Nat}
    (h : root.Leads place (keptNames names) links there) :
    root.Leads place names links there := by
  induction names generalizing place links with
  | nil => exact h
  | cons name names ih =>
      cases names with
      | nil =>
          have hSame : keptNames [name] = [name] := by
            by_cases hName : name = "" <;>
              simp [keptNames, hName]
          rwa [hSame] at h
      | cons next rest =>
          have hNil := keptNames_ne_nil (List.cons_ne_nil next rest)
          rw [keptNames_cons_cons] at h
          split at h
          case isTrue hEmpty =>
            rcases List.exists_cons_of_ne_nil hNil with
              ⟨first, last, hKept⟩
            refine .skip ?_ ?_ (ih h)
            · rw [hKept] at h
              exact h.hasDirectory
            · rw [hEmpty]
              rfl
          case isFalse hEmpty =>
            generalize hTail : keptNames (next :: rest) = tail at h
            cases h with
            | skip hHere hName hRest =>
                exact .skip hHere hName (ih (hTail ▸ hRest))
            | up hHere hRest =>
                exact .up hHere (ih (hTail ▸ hRest))
            | directory hName hUp hEntry hRest =>
                exact
                  .directory hName hUp hEntry (ih (hTail ▸ hRest))
            | file _ _ _ => exact absurd hTail hNil
            | link hName hUp hEntry hTarget hRest =>
                exact
                  .link hName hUp hEntry hTarget
                    (ih (hTail ▸ hRest))

end Node

------------------------------------------------------------
-- Lookups
------------------------------------------------------------

namespace FileTree

open Node

section Lookups

variable {root n : Node}
variable {here place : Place}
variable {names rest : List String}
variable {name target : String}

/- An entry of a directory by its place. -/
theorem entry?_of_at?
    (h : root.at? (here ++ [name]) = some n) :
    ((root.at? here).bind fun m => m.entry? name) = some n := by
  rwa [← at?_append_singleton]

/- Where names lead that a lookup follows without a link. -/
theorem leads_of_advance_arrived
    (hHere : root.HasDirectory here)
    (h :
      advance root .follow here names =
        .arrived (.node place n)) :
    root.Leads here names 0 place ∧ root.at? place = some n ∧
      ∀ target, n ≠ .link target := by
  fun_induction advance root .follow here names with
  | case1 here m hNode =>
      cases h
      rcases hHere with ⟨entries, hEntries⟩
      rw [hNode] at hEntries
      cases hEntries
      exact ⟨.here _, hNode, by simp⟩
  | case2 here hNode => cases h
  | case3 here name rest hName ih =>
      rcases ih hHere h with ⟨hLeads, hPlace⟩
      exact ⟨.skip hHere (by simpa using hName) hLeads, hPlace⟩
  | case4 here rest hName ih =>
      rcases ih hHere.dropLast h with ⟨hLeads, hPlace⟩
      exact ⟨.up hHere hLeads, hPlace⟩
  | case5 => cases h
  | case6 => cases h
  | case7 => cases h
  | case8 => cases h
  | case9 here name rest hName hUp _ _ entries hEntry ih =>
      rw [← at?_append_singleton] at hEntry
      rcases ih ⟨entries, hEntry⟩ h with ⟨hLeads, hPlace⟩
      exact
        ⟨.directory (by simpa using hName) hUp ⟨entries, hEntry⟩
            hLeads,
          hPlace⟩
  | case10 here name rest hName hUp _ _ data hEntry hNil =>
      cases h
      rw [← at?_append_singleton] at hEntry
      rw [List.isEmpty_iff] at hNil
      subst hNil
      exact
        ⟨.file (by simpa using hName) hUp hEntry, hEntry,
          by simp⟩
  | case11 => cases h
  | case12 here name rest hName hUp _ _ target hEntry hKeep =>
      simp at hKeep
  | case13 => cases h

/-
  A link that a lookup meets is the entry of one of its names,
  and what the names from there on lead to, all of them do.
-/
theorem leads_of_advance_redirected
    (hHere : root.HasDirectory here)
    (h :
      advance root .follow here names =
        .redirected place target rest) :
    ∃ name,
      Path.isName name.toList = true ∧ name ≠ ".." ∧
        root.at? (place ++ [name]) = some (.link target) ∧
          ∀ links there,
            root.Leads place (name :: rest) links there →
              root.Leads here names links there := by
  fun_induction advance root .follow here names with
  | case1 => cases h
  | case2 => cases h
  | case3 here name rest hName ih =>
      rcases ih hHere h with ⟨m, hM, hUp, hEntry, hLeads⟩
      refine ⟨m, hM, hUp, hEntry, ?_⟩
      intro links there hRest
      exact
        .skip hHere (by simpa using hName)
          (hLeads links there hRest)
  | case4 here rest hName ih =>
      rcases ih hHere.dropLast h with
        ⟨m, hM, hUp, hEntry, hLeads⟩
      refine ⟨m, hM, hUp, hEntry, ?_⟩
      intro links there hRest
      exact .up hHere (hLeads links there hRest)
  | case5 => cases h
  | case6 => cases h
  | case7 => cases h
  | case8 => cases h
  | case9 here name rest hName hUp _ _ entries hEntry ih =>
      rw [← at?_append_singleton] at hEntry
      rcases ih ⟨entries, hEntry⟩ h with
        ⟨m, hM, hUp', hLink, hLeads⟩
      refine ⟨m, hM, hUp', hLink, ?_⟩
      intro links there hRest
      exact
        .directory (by simpa using hName) hUp ⟨entries, hEntry⟩
          (hLeads links there hRest)
  | case10 => cases h
  | case11 => cases h
  | case12 => cases h
  | case13 here name rest hName hUp _ _ target hEntry _ =>
      cases h
      rw [← at?_append_singleton] at hEntry
      exact
        ⟨name, by simpa using hName, hUp, hEntry,
          fun _ _ hRest => hRest⟩

/- Where names lead that a lookup follows. -/
theorem leads_of_follow
    {bound : Nat}
    (hRoot : root.HasDirectory [])
    (hHere : root.HasDirectory here)
    (h :
      follow root .follow bound here names =
        .ok (.node place n)) :
    ∃ links,
      links < bound ∧ root.Leads here names links place ∧
        root.at? place = some n ∧ ∀ target, n ≠ .link target := by
  induction bound generalizing here names with
  | zero => cases h
  | succ bound ih =>
      rw [follow] at h
      cases hAdvance : advance root .follow here names with
      | arrived target =>
          rw [hAdvance] at h
          cases h
          exact
            ⟨0, by omega,
              leads_of_advance_arrived hHere hAdvance⟩
      | failed cause =>
          rw [hAdvance] at h
          cases h
      | redirected middle target rest =>
          rw [hAdvance] at h
          rcases leads_of_advance_redirected hHere hAdvance with
            ⟨name, hName, hUp, hEntry, hLeads⟩
          have hStart : root.HasDirectory (startOf target middle) := by
            unfold startOf
            split
            · exact hRoot
            · exact hasDirectory_of_at?_append hEntry
          rcases ih hStart h with
            ⟨links, hBound, hNames, hPlace⟩
          rcases hNames.of_append with
            ⟨there, inner, outer, hTarget, hRest, rfl⟩
          exact
            ⟨inner + outer + 1, by omega,
              hLeads _ _
                (.link hName hUp hEntry hTarget.of_keptNames
                  hRest),
              hPlace⟩

------------------------------------------------------------
-- Lookups Without Links
------------------------------------------------------------

/- A lookup goes to the end of a place below a directory. -/
theorem advance_of_at?
    (purpose : Purpose)
    (here : Place)
    (hRoot : root.WellFormed)
    (hPurpose : purpose ≠ .create)
    (h : root.at? (here ++ names) = some n)
    (hLink : purpose = .keep ∨ ∀ target, n ≠ .link target) :
    advance root purpose here names =
      .arrived (.node (here ++ names) n) := by
  induction names generalizing here with
  | nil =>
      rw [List.append_nil] at h ⊢
      rw [advance, h]
  | cons name rest ih =>
      have hName := hRoot.isEntryName h
      have hCreate : createsDirectory purpose rest = false := by
        simp [createsDirectory, hPurpose]
      rw [List.append_cons] at h ⊢
      rw [advance, if_neg (by simp [hName.isName]),
        if_neg hName.ne_up, if_neg (by simp [hCreate]),
        if_neg (by simp [hName.isLong])]
      cases rest with
      | nil =>
          rw [List.append_nil] at h ⊢
          rw [entry?_of_at? h]
          cases n with
          | directory entries =>
              simp [advance, h]
          | file data => rfl
          | link target =>
              rcases hLink with rfl | hLink
              · rfl
              · exact absurd rfl (hLink target)
      | cons next rest =>
          rcases hasDirectory_of_at?_append h with
            ⟨entries, hEntry⟩
          rw [entry?_of_at? hEntry]
          exact ih _ h

/- Going on from a directory that a lookup arrives at. -/
theorem advance_append_of_arrived
    {entries : List (String × Node)}
    (h :
      advance root .follow here names =
        .arrived (.node place (.directory entries))) :
    advance root .follow here (names ++ rest) =
      advance root .follow place rest := by
  fun_induction advance root .follow here names with
  | case1 here m hNode =>
      cases h
      rfl
  | case2 => cases h
  | case3 here name tail hName ih =>
      rw [List.cons_append, advance, if_pos hName]
      exact ih h
  | case4 here tail hName ih =>
      rw [List.cons_append, advance, if_neg hName, if_pos rfl]
      exact ih h
  | case5 => cases h
  | case6 => cases h
  | case7 => cases h
  | case8 => cases h
  | case9 here name tail hName hUp hCreate hLong inner hEntry ih =>
      rw [List.cons_append, advance, if_neg hName, if_neg hUp,
        if_neg (by simp [createsDirectory]), if_neg hLong, hEntry]
      exact ih h
  | case10 => cases h
  | case11 => cases h
  | case12 => cases h
  | case13 => cases h

/- Going on from a link that a lookup meets. -/
theorem advance_append_of_redirected
    {left : List String}
    (h :
      advance root .follow here names =
        .redirected place target left) :
    advance root .follow here (names ++ rest) =
      .redirected place target (left ++ rest) := by
  fun_induction advance root .follow here names with
  | case1 => cases h
  | case2 => cases h
  | case3 here name tail hName ih =>
      rw [List.cons_append, advance, if_pos hName]
      exact ih h
  | case4 here tail hName ih =>
      rw [List.cons_append, advance, if_neg hName, if_pos rfl]
      exact ih h
  | case5 => cases h
  | case6 => cases h
  | case7 => cases h
  | case8 => cases h
  | case9 here name tail hName hUp hCreate hLong inner hEntry ih =>
      rw [List.cons_append, advance, if_neg hName, if_neg hUp,
        if_neg (by simp [createsDirectory]), if_neg hLong, hEntry]
      exact ih h
  | case10 => cases h
  | case11 => cases h
  | case12 => cases h
  | case13 here name tail hName hUp hCreate hLong inner hEntry _ =>
      cases h
      rw [List.cons_append, advance, if_neg hName, if_neg hUp,
        if_neg (by simp [createsDirectory]), if_neg hLong, hEntry]
      simp

/- Going on from a directory that names lead to. -/
theorem follow_append
    {bound : Nat}
    {entries : List (String × Node)}
    {t : Target}
    (h :
      follow root .follow bound here names =
        .ok (.node place (.directory entries)))
    (hRest : advance root .follow place rest = .arrived t) :
    follow root .follow bound here (names ++ rest) = .ok t := by
  induction bound generalizing here names with
  | zero => cases h
  | succ bound ih =>
      rw [follow] at h ⊢
      cases hAdvance : advance root .follow here names with
      | arrived target =>
          rw [hAdvance] at h
          cases h
          rw [advance_append_of_arrived hAdvance, hRest]
      | failed cause =>
          rw [hAdvance] at h
          cases h
      | redirected middle target left =>
          rw [hAdvance] at h
          rw [advance_append_of_redirected hAdvance]
          dsimp only at h ⊢
          rw [← List.append_assoc]
          exact ih h

end Lookups

------------------------------------------------------------
-- Paths That Are Found
------------------------------------------------------------

/- The place where the names of a path start. -/
def start
    (t : FileTree)
    (p : Path) : Place :=
  if p.isAbsolute then [] else t.workplace

section Found

variable {t : FileTree}
variable {p : Path}
variable {place rest : Place}
variable {n : Node}

/- A path leads from where a directory is. -/
theorem WellFormed.hasDirectory_start
    (hTree : t.WellFormed)
    (p : Path) :
    t.root.HasDirectory (t.start p) := by
  unfold start
  split
  · exact hTree.workplace.nil
  · exact hTree.workplace

/- A path that is found can be looked up as it is. -/
theorem follow_of_find
    (h : t.find p = .ok (place, n)) :
    p.isLong = false ∧
      follow t.root .follow (linkLimit + 1) (t.start p) p.names =
        .ok (.node place n) := by
  unfold find at h
  cases hTarget : t.target .follow p with
  | error cause =>
      rw [hTarget] at h
      cases h
  | ok target =>
      rw [hTarget] at h
      cases target with
      | free place => cases h
      | node place n =>
          cases h
          unfold FileTree.target at hTarget
          split at hTarget
          case isTrue => cases hTarget
          case isFalse hLong => exact ⟨by simpa using hLong, hTarget⟩

/- What can be looked up is found. -/
theorem find_of_follow
    (hLong : p.isLong = false)
    (h :
      follow t.root .follow (linkLimit + 1) (t.start p) p.names =
        .ok (.node place n)) :
    t.find p = .ok (place, n) := by
  have hTarget : t.target .follow p = .ok (.node place n) := by
    unfold FileTree.target
    rw [if_neg (by simp [hLong])]
    exact h
  rw [find, hTarget]

/- A path that can be looked up fails as its names do. -/
theorem find_of_follow_error
    {cause : SystemError}
    (hLong : p.isLong = false)
    (h :
      follow t.root .follow (linkLimit + 1) (t.start p) p.names =
        .error cause) :
    t.find p = .error cause := by
  have hTarget : t.target .follow p = .error cause := by
    unfold FileTree.target
    rw [if_neg (by simp [hLong])]
    exact h
  rw [find, hTarget]

/- What a path is found to lead to is where its names lead. -/
theorem leads_of_find
    (hTree : t.WellFormed)
    (h : t.find p = .ok (place, n)) :
    ∃ links,
      links ≤ linkLimit ∧
        t.root.Leads (t.start p) p.names links place ∧
          t.root.at? place = some n ∧
            ∀ target, n ≠ .link target := by
  rcases leads_of_follow hTree.workplace.nil
      (hTree.hasDirectory_start p) (follow_of_find h).2 with
    ⟨links, hBound, hLeads⟩
  exact ⟨links, by omega, hLeads⟩

/- What a path is found to lead to stands in the tree. -/
theorem at?_of_find
    (hTree : t.WellFormed)
    (h : t.find p = .ok (place, n)) :
    t.root.at? place = some n := by
  rcases leads_of_find hTree h with ⟨_, _, _, hPlace, _⟩
  exact hPlace

/- No name of a path that is found holds a slash. -/
theorem slash_not_mem_of_find
    (hTree : t.WellFormed)
    (h : t.find p = .ok (place, n)) :
    ∀ name ∈ p.names, '/' ∉ name.toList := by
  rcases leads_of_find hTree h with ⟨_, _, hLeads, _⟩
  intro name hMem
  rcases hLeads.isEntryName_of_mem hTree.root hMem with
    hName | rfl | hEntry
  · rcases Path.isName_eq_false_iff.mp hName with h | h <;>
      simp [h]
  · decide
  · exact hEntry.slash_not_mem

/- No name of a path that is found holds a null. -/
theorem hasNull_of_find
    (hTree : t.WellFormed)
    (h : t.find p = .ok (place, n)) :
    p.hasNull = false := by
  rcases leads_of_find hTree h with ⟨_, _, hLeads, _⟩
  unfold Path.hasNull
  rw [List.any_eq_false]
  intro name hMem
  rcases hLeads.isEntryName_of_mem hTree.root hMem with
    hName | rfl | hEntry
  · rcases Path.isName_eq_false_iff.mp hName with h | h <;>
      simp [Path.nameHasNull, h]
  · decide
  · simp [hEntry.hasNull]

/- What stands below a directory is found below its path. -/
theorem find_below
    {entries : List (String × Node)}
    (hTree : t.WellFormed)
    (h : t.find p = .ok (place, .directory entries))
    (hRest : t.root.at? (place ++ rest) = some n)
    (hLink : ∀ target, n ≠ .link target)
    (hLong : (p.below rest).isLong = false) :
    t.find (p.below rest) = .ok (place ++ rest, n) := by
  apply find_of_follow hLong
  exact
    follow_append (follow_of_find h).2
      (advance_of_at? .follow place hTree.root (by decide) hRest
        (Or.inr hLink))

/- What stands at a place is found by its path. -/
theorem find_pathOf
    (hTree : t.WellFormed)
    (h : t.root.at? place = some n)
    (hLink : ∀ target, n ≠ .link target)
    (hLong : (pathOf place).isLong = false) :
    t.find (pathOf place) = .ok (place, n) := by
  apply find_of_follow hLong
  have hArrived :=
    advance_of_at? .follow [] hTree.root (by decide) h
      (Or.inr hLink)
  change follow t.root .follow (linkLimit + 1) [] place = _
  rw [follow, hArrived]
  rfl

/- The link at a place, where its path can be looked up. -/
theorem linkAt?_pathOf
    {target : String}
    (hTree : t.WellFormed)
    (h : t.root.at? place = some (.link target))
    (hLong : (pathOf place).isLong = false) :
    t.linkAt? (pathOf place) = some target := by
  have hArrived :=
    advance_of_at? .keep [] hTree.root (by decide) h
      (Or.inl rfl)
  have hTarget :
      t.target .keep (pathOf place) =
        .ok (.node place (.link target)) := by
    unfold FileTree.target
    rw [if_neg (by simp [hLong])]
    change follow t.root .keep (linkLimit + 1) [] place = _
    rw [follow, hArrived]
    rfl
  rw [linkAt?, hTarget]

/- No link is read where another kind of node stands. -/
theorem linkAt?_pathOf_eq_none
    (hTree : t.WellFormed)
    (h : t.root.at? place = some n)
    (hLink : ∀ target, n ≠ .link target) :
    t.linkAt? (pathOf place) = none := by
  have hArrived :=
    advance_of_at? .keep [] hTree.root (by decide) h
      (Or.inl rfl)
  unfold linkAt? FileTree.target
  split
  case h_1 target hTarget =>
    split at hTarget
    case isTrue => cases hTarget
    case isFalse =>
      change
        follow t.root .keep (linkLimit + 1) [] place = _
        at hTarget
      rw [follow, hArrived] at hTarget
      cases hTarget
      exact absurd rfl (hLink target)
  case h_2 => rfl

/- No link is read by a path that cannot be looked up. -/
theorem linkAt?_of_isLong
    (h : p.isLong = true) :
    t.linkAt? p = none := by
  unfold linkAt? FileTree.target
  rw [if_pos h]

end Found

end FileTree

end CommentLint
