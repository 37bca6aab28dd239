import CommentLint.Proofs.FileTree.PathNames

/-
  Well-formed trees.

  In a well-formed tree the entries of every directory have
  different names, and each of them is a name that an entry
  can have.  What stands at a place is then an entry of the
  directory above it.

  Key definitions include:
    * `Node.WellFormed`
    * `Node.HasDirectory`
    * `Node.places`
    * `Node.NamesEntries`
    * `FileTree.WellFormed`

  Key results include:
    * `Node.at?_append`
    * `Node.WellFormed.at?`
    * `Node.WellFormed.isEntryName_of_mem`
    * `Node.mem_places_of_at?`
    * `Node.wellFormed_of_places`
-/

namespace CommentLint

namespace Node

------------------------------------------------------------
-- Places
------------------------------------------------------------

section Places

variable {root n : Node}
variable {name : String}
variable {place rest : Place}

/- A place further down is reached from one on the way. -/
theorem at?_append
    (root : Node)
    (place rest : Place) :
    root.at? (place ++ rest) =
      (root.at? place).bind fun n => n.at? rest := by
  induction place generalizing root with
  | nil => rfl
  | cons name place ih =>
      rw [List.cons_append, at?, at?]
      cases root.entry? name with
      | none => rfl
      | some n => exact ih n

/- What stands below a place that is known. -/
theorem at?_append_of_at?
    (h : root.at? place = some n)
    (rest : Place) :
    root.at? (place ++ rest) = n.at? rest := by
  rw [at?_append, h, Option.bind_some]

/- What stands one name further down is an entry. -/
theorem at?_append_singleton
    (root : Node)
    (place : Place)
    (name : String) :
    root.at? (place ++ [name]) =
      (root.at? place).bind fun n => n.entry? name := by
  rw [at?_append]
  cases root.at? place with
  | none => rfl
  | some n =>
      rw [Option.bind_some, Option.bind_some, at?]
      cases n.entry? name <;> rfl

/- Only a directory has entries. -/
theorem exists_entries_of_entry?
    (h : n.entry? name = some root) :
    ∃ entries,
      n = .directory entries ∧
        entries.lookup name = some root := by
  cases n with
  | directory entries => exact ⟨entries, rfl, h⟩
  | file data => cases h
  | link target => cases h

/- Whether a directory stands at a place. -/
def HasDirectory
    (root : Node)
    (place : Place) : Prop :=
  ∃ entries, root.at? place = some (.directory entries)

/- Above a place at which something stands is a directory. -/
theorem hasDirectory_of_at?_append
    (h : root.at? (place ++ name :: rest) = some n) :
    root.HasDirectory place := by
  rw [at?_append] at h
  rcases Option.bind_eq_some_iff.mp h with ⟨m, hPlace, hRest⟩
  rw [at?] at hRest
  rcases Option.bind_eq_some_iff.mp hRest with ⟨k, hEntry, _⟩
  rcases exists_entries_of_entry? hEntry with
    ⟨entries, rfl, _⟩
  exact ⟨entries, hPlace⟩

/- Above a directory is a directory, the root being its own. -/
theorem HasDirectory.dropLast
    (h : root.HasDirectory place) :
    root.HasDirectory place.dropLast := by
  rcases List.eq_nil_or_concat place with
    rfl | ⟨above, name, rfl⟩
  · exact h
  · rcases h with ⟨entries, hPlace⟩
    rw [List.concat_eq_append] at hPlace ⊢
    rw [List.dropLast_concat]
    exact hasDirectory_of_at?_append hPlace

/- The root above a directory is a directory. -/
theorem HasDirectory.nil
    (h : root.HasDirectory place) :
    root.HasDirectory [] := by
  cases place with
  | nil => exact h
  | cons name rest =>
      rcases h with ⟨entries, hPlace⟩
      rw [← List.nil_append (name :: rest)] at hPlace
      exact hasDirectory_of_at?_append hPlace

end Places

------------------------------------------------------------
-- Well-Formed Nodes
------------------------------------------------------------

/-
  Directories name their entries differently, and by names
  that entries can have.
-/
inductive WellFormed : Node → Prop where
| file (data : Bytes) : WellFormed (.file data)
| link (target : String) : WellFormed (.link target)
| directory
    {entries : List (String × Node)}
    (nodup : (entries.map Prod.fst).Nodup)
    (names : ∀ e ∈ entries, IsEntryName e.1)
    (below : ∀ e ∈ entries, WellFormed e.2) :
    WellFormed (.directory entries)

section WellFormed

variable {root n : Node}
variable {entries : List (String × Node)}
variable {name : String}
variable {place : Place}

/- A name is looked up to an entry. -/
theorem mem_of_lookup
    (h : entries.lookup name = some n) :
    (name, n) ∈ entries := by
  rcases List.lookup_eq_some_iff.mp h with
    ⟨before, after, rfl, _⟩
  simp

/- Where names differ, every entry is looked up by its own. -/
theorem lookup_eq_some_iff
    (hNodup : (entries.map Prod.fst).Nodup) :
    entries.lookup name = some n ↔ (name, n) ∈ entries := by
  constructor
  · exact mem_of_lookup
  · intro hMem
    rcases List.append_of_mem hMem with ⟨before, after, rfl⟩
    rw [List.lookup_eq_some_iff]
    refine ⟨before, after, rfl, ?_⟩
    intro e hBefore
    rw [List.map_append, List.nodup_append] at hNodup
    have hNe :=
      hNodup.2.2 e.1 (List.mem_map_of_mem hBefore) name (by simp)
    simpa using Ne.symm hNe

/- The entries of a well-formed directory. -/
theorem WellFormed.of_entry?
    (hRoot : root.WellFormed)
    (h : root.entry? name = some n) :
    IsEntryName name ∧ n.WellFormed := by
  rcases exists_entries_of_entry? h with ⟨entries, rfl, hLookup⟩
  have hMem := mem_of_lookup hLookup
  cases hRoot with
  | directory _ names below =>
      exact ⟨names _ hMem, below _ hMem⟩

/- An entry of a well-formed directory stands at its name. -/
theorem WellFormed.at?_of_mem
    (hNode : (Node.directory entries).WellFormed)
    (hMem : (name, n) ∈ entries) :
    (Node.directory entries).at? [name] = some n := by
  cases hNode with
  | directory hNodup _ _ =>
      have hLookup := (lookup_eq_some_iff hNodup).mpr hMem
      change (entries.lookup name).bind _ = _
      rw [hLookup]
      rfl

/- What stands in a well-formed tree is well-formed. -/
theorem WellFormed.at?
    (hRoot : root.WellFormed)
    (h : root.at? place = some n) :
    n.WellFormed := by
  induction place generalizing root with
  | nil =>
      cases h
      exact hRoot
  | cons name rest ih =>
      rw [Node.at?] at h
      rcases Option.bind_eq_some_iff.mp h with
        ⟨m, hEntry, hRest⟩
      exact ih (hRoot.of_entry? hEntry).2 hRest

/- A place in a well-formed tree consists of names of entries. -/
theorem WellFormed.isEntryName_of_mem
    (hRoot : root.WellFormed)
    (h : root.at? place = some n)
    (hMem : name ∈ place) :
    IsEntryName name := by
  induction place generalizing root with
  | nil => cases hMem
  | cons first rest ih =>
      rw [Node.at?] at h
      rcases Option.bind_eq_some_iff.mp h with
        ⟨m, hEntry, hRest⟩
      rcases List.mem_cons.mp hMem with rfl | hMem
      · exact (hRoot.of_entry? hEntry).1
      · exact ih (hRoot.of_entry? hEntry).2 hRest hMem

/- A name on the way to a place is that of an entry. -/
theorem WellFormed.isEntryName
    {rest : Place}
    (hRoot : root.WellFormed)
    (h : root.at? (place ++ name :: rest) = some n) :
    IsEntryName name :=
  hRoot.isEntryName_of_mem h (by simp)

/- No place in a well-formed tree leads back up. -/
theorem WellFormed.up_not_mem
    (hRoot : root.WellFormed)
    (h : root.at? place = some n) :
    ".." ∉ place := by
  intro hMem
  exact (hRoot.isEntryName_of_mem h hMem).ne_up rfl

end WellFormed

------------------------------------------------------------
-- All Places
------------------------------------------------------------

mutual

/- All places below a node, with what stands there. -/
def places : Node → List (Place × Node)
  | .file data => [([], .file data)]
  | .link target => [([], .link target)]
  | .directory entries =>
      ([], .directory entries) :: entryPlaces entries

/- All places below entries of a directory. -/
def entryPlaces :
    List (String × Node) → List (Place × Node)
  | [] => []
  | (name, n) :: rest =>
      (places n).map (fun e => (name :: e.1, e.2)) ++
        entryPlaces rest

end

/- What stands below an entry stands below its directory. -/
theorem mem_entryPlaces
    {entries : List (String × Node)}
    {name : String}
    {n m : Node}
    {place : Place}
    (hEntry : (name, n) ∈ entries)
    (hMem : (place, m) ∈ n.places) :
    (name :: place, m) ∈ entryPlaces entries := by
  induction entries with
  | nil => cases hEntry
  | cons e rest ih =>
      rcases e with ⟨first, k⟩
      rw [entryPlaces, List.mem_append]
      rcases List.mem_cons.mp hEntry with hHere | hRest
      · cases hHere
        exact Or.inl (List.mem_map.mpr ⟨_, hMem, rfl⟩)
      · exact Or.inr (ih hRest)

/- What stands at a place is listed with all others. -/
theorem mem_places_of_at?
    {n m : Node}
    {place : Place}
    (h : n.at? place = some m) :
    (place, m) ∈ n.places := by
  induction place generalizing n with
  | nil =>
      cases h
      cases m <;> simp [places]
  | cons name rest ih =>
      rw [at?] at h
      rcases Option.bind_eq_some_iff.mp h with
        ⟨k, hEntry, hRest⟩
      rcases exists_entries_of_entry? hEntry with
        ⟨entries, rfl, hLookup⟩
      rw [places]
      exact
        List.mem_cons_of_mem _
          (mem_entryPlaces (mem_of_lookup hLookup) (ih hRest))

/- What the entries of a directory are named like. -/
def NamesEntries : Node → Prop
  | .directory entries =>
      (entries.map Prod.fst).Nodup ∧
        ∀ e ∈ entries, IsEntryName e.1
  | _ => True

instance (n : Node) : Decidable n.NamesEntries :=
  match n with
  | .directory entries =>
      inferInstanceAs
        (Decidable
          ((entries.map Prod.fst).Nodup ∧
            ∀ e ∈ entries, IsEntryName e.1))
  | .file _ => isTrue trivial
  | .link _ => isTrue trivial

/- A node is well-formed if every directory names its entries. -/
theorem wellFormed_of_places
    (n : Node)
    (h : ∀ e ∈ n.places, e.2.NamesEntries) :
    n.WellFormed := by
  match n with
  | .file data => exact .file data
  | .link target => exact .link target
  | .directory entries =>
      rcases h ([], .directory entries) (by simp [places]) with
        ⟨hNodup, hNames⟩
      refine .directory hNodup hNames ?_
      rintro ⟨name, m⟩ hMem
      apply wellFormed_of_places m
      rintro ⟨place, k⟩ hPlace
      apply h (name :: place, k)
      rw [places]
      exact
        List.mem_cons_of_mem _ (mem_entryPlaces hMem hPlace)
termination_by n
decreasing_by
  have hLt := List.sizeOf_lt_of_mem hMem
  simp at hLt ⊢
  omega

end Node

------------------------------------------------------------
-- Well-Formed Trees
------------------------------------------------------------

/- A well-formed tree whose workplace is one of its directories. -/
structure FileTree.WellFormed (t : FileTree) : Prop where
  root : t.root.WellFormed
  workplace : t.root.HasDirectory t.workplace

end CommentLint
