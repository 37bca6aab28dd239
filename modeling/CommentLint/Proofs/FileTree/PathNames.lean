import CommentLint.FileTree.Resolve
import Mathlib.Data.List.Basic
import Mathlib.Data.List.Infix

/-
  Names of paths and of entries.

  A name that an entry of a directory can have is not empty,
  is neither `.` nor `..`, and holds neither a slash nor a
  null.  A path of such names is read back from its text, and
  no `..` is taken away from it.

  Key definitions include:
    * `IsEntryName`
    * `Path.below`

  Key results include:
    * `Path.ofString_text`
    * `Path.text_below_inj`
    * `FileTree.absolute_pathOf`
-/

namespace CommentLint

------------------------------------------------------------
-- Names of Entries
------------------------------------------------------------

/- What the name of an entry of a directory is like. -/
structure IsEntryName (name : String) : Prop where
  isName : Path.isName name.toList = true
  ne_up : name ≠ ".."
  slash_not_mem : '/' ∉ name.toList
  hasNull : Path.nameHasNull name = false
  isLong : isLongName name = false

instance (name : String) : Decidable (IsEntryName name) :=
  decidable_of_iff
    (Path.isName name.toList = true ∧ name ≠ ".." ∧
      '/' ∉ name.toList ∧ Path.nameHasNull name = false ∧
        isLongName name = false)
    ⟨fun ⟨h₁, h₂, h₃, h₄, h₅⟩ => ⟨h₁, h₂, h₃, h₄, h₅⟩,
      fun ⟨h₁, h₂, h₃, h₄, h₅⟩ => ⟨h₁, h₂, h₃, h₄, h₅⟩⟩

namespace Path

/- What does not count as a name. -/
theorem isName_eq_false_iff
    {chars : List Char} :
    isName chars = false ↔ chars = [] ∨ chars = ['.'] := by
  cases chars <;> simp [isName]

------------------------------------------------------------
-- Paths Below a Path
------------------------------------------------------------

/- The path that names lead to from a path. -/
def below
    (p : Path)
    (place : Place) : Path :=
  { p with names := p.names ++ place }

section Below

variable (p : Path)
variable (name : String)
variable (place rest : Place)

/- No names lead away from a path. -/
@[simp] theorem below_nil : p.below [] = p := by
  simp [below]

/- One name after another leads further down. -/
theorem below_below :
    (p.below place).below rest = p.below (place ++ rest) := by
  simp [below]

/- An entry lies one name below its directory. -/
theorem join_eq_below : p.join name = p.below [name] :=
  rfl

/- The names below an entry follow its own. -/
theorem below_cons :
    p.below (name :: place) = (p.join name).below place := by
  simp [below, join]

/- The path of an entry ends in its name. -/
theorem name_below_append :
    (p.below (place ++ [name])).name = name := by
  simp [below, Path.name]

/- Above the path of an entry is that of its directory. -/
theorem parent_below_append :
    (p.below (place ++ [name])).parent = p.below place := by
  simp [below, parent, ← List.append_assoc]

/- A path below another starts where that one does. -/
theorem isAbsolute_below :
    (p.below place).isAbsolute = p.isAbsolute :=
  rfl

/- The components of a path below another start with those of it. -/
theorem parts_below :
    (p.below place).parts = p.parts ++ place := by
  cases h : p.anchor <;> simp [parts, below, h]

/- The names from a path to one below it. -/
theorem namesTo?_below :
    p.namesTo? (p.below place) = some place := by
  simp [namesTo?, below]

end Below

/- A path lies below another by one list of names only. -/
theorem below_inj
    {p : Path}
    {place rest : Place} :
    p.below place = p.below rest ↔ place = rest := by
  simp [below]

/- What lies below a path is reached by the names from there. -/
theorem namesTo?_eq_some_iff
    {base p : Path}
    {names : List String} :
    base.namesTo? p = some names ↔ p = base.below names := by
  constructor
  · intro h
    unfold namesTo? at h
    split at h
    case isTrue hBelow =>
      rw [Bool.and_eq_true, beq_iff_eq, List.isPrefixOf_iff_prefix]
        at hBelow
      rcases hBelow with ⟨hAnchor, rest, hNames⟩
      cases h
      rw [← hNames, List.drop_left]
      cases p
      simp_all [below]
    case isFalse => cases h
  · rintro rfl
    exact namesTo?_below base names

------------------------------------------------------------
-- Text of Paths
------------------------------------------------------------

/- Names that the text of a path keeps apart. -/
def HasPlainNames (p : Path) : Prop :=
  ∀ name ∈ p.names,
    isName name.toList = true ∧ '/' ∉ name.toList

instance (p : Path) : Decidable p.HasPlainNames :=
  inferInstanceAs
    (Decidable
      (∀ name ∈ p.names,
        isName name.toList = true ∧ '/' ∉ name.toList))

/- Slashes between names that hold none are where a text is cut. -/
theorem splitOn_intercalate_names
    {names : List String}
    (hNil : names ≠ [])
    (hSlash : ∀ name ∈ names, '/' ∉ name.toList) :
    (['/'].intercalate (names.map String.toList)).splitOn '/' =
      names.map String.toList := by
  apply List.splitOn_intercalate
  · intro l hMem
    rcases List.mem_map.mp hMem with ⟨name, hName, rfl⟩
    exact hSlash name hName
  · simpa using hNil

/- The text of names starts with the first of their characters. -/
theorem exists_intercalate_eq_cons
    {name : String}
    (rest : List String)
    (hName : isName name.toList = true)
    (hSlash : '/' ∉ name.toList) :
    ∃ c tail, c ≠ '/' ∧
      ['/'].intercalate ((name :: rest).map String.toList) =
        c :: tail := by
  rcases hChars : name.toList with _ | ⟨c, tail⟩
  · rw [hChars] at hName
    cases hName
  · refine ⟨c, ?_⟩
    have hFirst : c ≠ '/' := by
      rintro rfl
      exact hSlash (by simp [hChars])
    cases rest with
    | nil => exact ⟨tail, hFirst, by simp [hChars]⟩
    | cons next rest =>
        exact
          ⟨tail ++ ['/'] ++
              ['/'].intercalate
                ((next :: rest).map String.toList),
            hFirst, by simp [hChars]⟩

/- The text of a path that has names. -/
theorem toList_text
    (p : Path)
    (hNil : p.names ≠ []) :
    p.text.toList =
      p.anchor.text.toList ++
        ['/'].intercalate (p.names.map String.toList) := by
  rcases p with ⟨anchor, names⟩
  cases names with
  | nil => exact absurd rfl hNil
  | cons name rest =>
      cases anchor <;>
        simp [text, String.toList_append,
          String.toList_intercalate]

/- The anchor of a text is read back from before its names. -/
theorem anchorOf_text
    (anchor : Anchor)
    {c : Char}
    {tail : List Char}
    (h : c ≠ '/') :
    anchorOf (anchor.text.toList ++ c :: tail) = anchor := by
  cases anchor with
  | here =>
      change anchorOf (c :: tail) = _
      unfold anchorOf
      split <;> simp_all
  | root =>
      change anchorOf ('/' :: c :: tail) = _
      unfold anchorOf
      split <;> simp_all
  | doubleRoot =>
      change anchorOf ('/' :: '/' :: c :: tail) = _
      unfold anchorOf
      split
      case h_3 rest _ hNot hEq =>
        exact (hNot _ (List.cons.inj hEq).2.symm).elim
      all_goals simp_all

/- An anchor adds no name to those of a text. -/
theorem filter_splitOn_anchor
    (anchor : Anchor)
    (chars : List Char) :
    ((anchor.text.toList ++ chars).splitOn '/').filter isName =
      (chars.splitOn '/').filter isName := by
  cases anchor with
  | here => rfl
  | root =>
      change (('/' :: chars).splitOn '/').filter isName = _
      rw [List.splitOn_cons_eq_if_modifyHead]
      rfl
  | doubleRoot =>
      change (('/' :: '/' :: chars).splitOn '/').filter isName = _
      rw [List.splitOn_cons_eq_if_modifyHead,
        List.splitOn_cons_eq_if_modifyHead]
      rfl

/- A path of plain names is read back from its text. -/
theorem ofString_text
    {p : Path}
    (h : p.HasPlainNames) :
    ofString p.text = p := by
  rcases p with ⟨anchor, names⟩
  cases names with
  | nil => cases anchor <;> rfl
  | cons name rest =>
      have hText := toList_text ⟨anchor, name :: rest⟩ (by simp)
      have hFirst := h name (by simp)
      rcases exists_intercalate_eq_cons rest hFirst.1
          hFirst.2 with
        ⟨c, tail, hSlash, hChars⟩
      have hNames :
          ((name :: rest).map String.toList).filter isName =
            (name :: rest).map String.toList := by
        rw [List.filter_eq_self]
        intro chars hMem
        rcases List.mem_map.mp hMem with ⟨m, hName, rfl⟩
        exact (h m hName).1
      have hAnchor :
          anchorOf (text ⟨anchor, name :: rest⟩).toList =
            anchor := by
        rw [hText, hChars]
        exact anchorOf_text anchor hSlash
      unfold ofString
      dsimp only
      rw [hAnchor, hText, filter_splitOn_anchor,
        splitOn_intercalate_names (by simp)
          fun m hName => (h m hName).2,
        hNames, List.map_map]
      simp [Function.comp_def]

/- The text of an absolute path starts with a slash. -/
theorem exists_text_of_isAbsolute
    {p : Path}
    (h : p.isAbsolute = true) :
    ∃ tail, p.text.toList = '/' :: tail := by
  rcases p with ⟨_ | _ | _, names⟩
  · cases h
  · exact ⟨_, by simp [text, Anchor.text]; rfl⟩
  · exact ⟨_, by simp [text, Anchor.text]; rfl⟩

/- The text of a path from nowhere does not start with a slash. -/
theorem ne_text_of_isAbsolute
    {p q : Path}
    (hHere : p.anchor = .here)
    (hNames : p.HasPlainNames)
    (hAbsolute : q.isAbsolute = true) :
    p.text ≠ q.text := by
  rcases p with ⟨anchor, names⟩
  cases hHere
  rcases exists_text_of_isAbsolute hAbsolute with ⟨tail, hRoot⟩
  intro hSame
  rw [← hSame] at hRoot
  cases names with
  | nil => cases hRoot
  | cons name rest =>
      have hFirst := hNames name (by simp)
      rcases exists_intercalate_eq_cons rest hFirst.1
          hFirst.2 with
        ⟨c, tail, hSlash, hChars⟩
      rw [toList_text _ (by simp), hChars] at hRoot
      cases hRoot
      exact hSlash rfl

/- Paths below one path are told apart by their texts. -/
theorem text_below_inj
    {p : Path}
    {place rest : Place}
    (hNil : (p.below place).names ≠ [])
    (hNil' : (p.below rest).names ≠ [])
    (hSlash : ∀ name ∈ (p.below place).names, '/' ∉ name.toList)
    (hSlash' : ∀ name ∈ (p.below rest).names, '/' ∉ name.toList)
    (h : (p.below place).text = (p.below rest).text) :
    place = rest := by
  have hChars := congrArg String.toList h
  rw [toList_text _ hNil, toList_text _ hNil'] at hChars
  have hNames :=
    congrArg (List.splitOn '/') (List.append_cancel_left hChars)
  rw [splitOn_intercalate_names hNil hSlash,
    splitOn_intercalate_names hNil' hSlash'] at hNames
  have hSame :=
    List.map_injective_iff.mpr
      (fun s t => String.toList_inj.mp) hNames
  exact List.append_cancel_left hSame

end Path

------------------------------------------------------------
-- Absolute Paths
------------------------------------------------------------

namespace FileTree

/- The path of a place below another. -/
theorem pathOf_append (place rest : Place) :
    pathOf (place ++ rest) = (pathOf place).below rest :=
  rfl

/- Without `..` names are kept as they are. -/
theorem foldl_pushName
    {names : List String}
    (h : ".." ∉ names)
    (done : List String) :
    names.foldl Path.pushName done = names.reverse ++ done := by
  induction names generalizing done with
  | nil => rfl
  | cons name rest ih =>
      rw [List.mem_cons, not_or] at h
      rw [List.foldl_cons, ih h.2, Path.pushName,
        if_neg (Ne.symm h.1)]
      simp

/- What names leave, `..` being taken away. -/
theorem mem_foldl_pushName
    {name : String}
    {names done : List String}
    (h : name ∈ names.foldl Path.pushName done) :
    name ∈ done ∨ name ∈ names ∧ name ≠ ".." := by
  induction names generalizing done with
  | nil => exact Or.inl h
  | cons first rest ih =>
      rw [List.foldl_cons] at h
      rcases ih h with hDone | ⟨hMem, hNe⟩
      · unfold Path.pushName at hDone
        split at hDone
        case isTrue =>
          exact Or.inl (List.mem_of_mem_drop hDone)
        case isFalse hFirst =>
          rcases List.mem_cons.mp hDone with rfl | hDone
          · exact Or.inr ⟨by simp, hFirst⟩
          · exact Or.inl hDone
      · exact Or.inr ⟨by simp [hMem], hNe⟩

/- The path of a place stays as it is. -/
theorem absolute_pathOf
    (t : FileTree)
    {place : Place}
    (h : ".." ∉ place) :
    t.absolute (pathOf place) = pathOf place := by
  change Path.mk .root (place.foldl Path.pushName []).reverse = _
  rw [foldl_pushName h, List.append_nil, List.reverse_reverse]
  rfl

end FileTree

end CommentLint
