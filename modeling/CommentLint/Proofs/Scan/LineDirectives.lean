import CommentLint.Proofs.Rule.FileOrder
import CommentLint.Scan.Basic

/-
  Directives and the lines of the violations they suppress.

  A scan finds the directives in the decoded text of a file
  and the violations in its bytes.  Both count lines alike, so
  a violation is suppressed by what stands in its own line.

  Key definitions include:
    * `Suppression.silences`
    * `Suppression.JudgedByLine`

  Key results include:
    * `Suppression.covers_iff`
    * `Suppression.lookup_ofData`
    * `Suppression.suppresses_eq_silences`
    * `FileTree.scanFile_suppresses_by_line`
-/

namespace CommentLint

open Ascii

------------------------------------------------------------
-- Numbered Lines
------------------------------------------------------------

namespace Suppression

section Numbered

variable {α β : Type}

/- What lines give, with the numbers of the lines. -/
def numbered
    (g : α → Option β)
    (start : Nat)
    (lines : List α) : List (Int × β) :=
  (lines.zipIdx start).filterMap fun (line, n) =>
    (g line).map fun b => ((n : Int), b)

/- The first of the lines gives what it gives, or nothing. -/
theorem numbered_cons
    (g : α → Option β)
    (start : Nat)
    (line : α)
    (lines : List α) :
    numbered g start (line :: lines) =
      match g line with
      | none => numbered g (start + 1) lines
      | some b =>
          ((start : Int), b) :: numbered g (start + 1) lines := by
  unfold numbered
  rw [List.zipIdx_cons, List.filterMap_cons]
  dsimp only
  cases g line <;> rfl

/- A number that is not the first is looked up further on. -/
theorem lookup_numbered_cons_of_ne
    {m start : Nat}
    (g : α → Option β)
    (hNe : m ≠ start)
    (line : α)
    (lines : List α) :
    (numbered g start (line :: lines)).lookup (m : Int) =
      (numbered g (start + 1) lines).lookup (m : Int) := by
  have hOther : ((m : Int) == (start : Int)) = false := by
    rw [beq_eq_false_iff_ne]
    omega
  rw [numbered_cons]
  cases g line with
  | none => rfl
  | some b =>
      dsimp only
      rw [List.lookup_cons, hOther]

/- No number before the first one is given. -/
theorem lookup_numbered_of_lt
    {m start : Nat}
    (g : α → Option β)
    (hLt : m < start)
    (lines : List α) :
    (numbered g start lines).lookup (m : Int) = none := by
  induction lines generalizing start with
  | nil => rfl
  | cons line lines ih =>
      rw [lookup_numbered_cons_of_ne g (Nat.ne_of_lt hLt)]
      exact ih (Nat.lt_succ_of_lt hLt)

/- A number leads to what its line gives. -/
theorem lookup_numbered
    (g : α → Option β)
    (start n : Nat)
    (lines : List α) :
    (numbered g start lines).lookup ((start + n : Nat) : Int) =
      lines[n]?.bind g := by
  induction lines generalizing start n with
  | nil => rfl
  | cons line lines ih =>
      cases n with
      | zero =>
          rw [Nat.add_zero, numbered_cons]
          cases hValue : g line with
          | none =>
              dsimp only
              rw [lookup_numbered_of_lt g (Nat.lt_succ_self start)]
              exact hValue.symm
          | some b =>
              dsimp only
              rw [List.lookup_cons_self]
              exact hValue.symm
      | succ n =>
          rw [lookup_numbered_cons_of_ne g (by omega),
            show start + (n + 1) = start + 1 + n by omega, ih]
          rfl

end Numbered

------------------------------------------------------------
-- Directives of Lines
------------------------------------------------------------

/- A suppression covers all rules, or those that it lists. -/
theorem covers_iff
    {s : Suppression}
    {ruleId : String} :
    s.covers ruleId = true ↔
      s = .all ∨ ∃ ids, s = .rules ids ∧ ruleId ∈ ids := by
  cases s with
  | all => simp [covers]
  | rules ids => simp [covers]

/- Whether the directive in the bytes of a line covers a rule. -/
def silences
    (line : Bytes)
    (ruleId : String) : Bool :=
  match ofLine? (Utf8.decodeLenient line) with
  | none => false
  | some s => s.covers ruleId

/- A rule is silenced by a directive that names it, or names none. -/
theorem silences_iff
    {line : Bytes}
    {ruleId : String} :
    silences line ruleId = true ↔
      ofLine? (Utf8.decodeLenient line) = some .all ∨
        ∃ ids,
          ofLine? (Utf8.decodeLenient line) =
              some (.rules ids) ∧
            ruleId ∈ ids := by
  unfold silences
  cases ofLine? (Utf8.decodeLenient line) with
  | none => simp
  | some s => simpa using covers_iff

/- The suppression for a line is the directive in its bytes. -/
theorem lookup_ofData
    (data : Bytes)
    (n : Nat) :
    (ofData data).lookup ((n : Int) + 1) =
      (data.splitOn lineFeed)[n]?.bind fun line =>
        ofLine? (Utf8.decodeLenient line) := by
  have hLines :
      ofData data =
        numbered ofLine? 1
          ((data.splitOn lineFeed).map Utf8.decodeLenient) := by
    rw [← Utf8.splitOn_decodeLenient]
    rfl
  have hNumber : (n : Int) + 1 = ((1 + n : Nat) : Int) := by
    omega
  rw [hLines, hNumber, lookup_numbered, List.getElem?_map,
    Option.bind_map]
  rfl

/- A violation in a line is suppressed if the line says so. -/
theorem suppresses_eq_silences
    {data line : Bytes}
    {v : Violation}
    {n : Nat}
    (hNumber : v.location.line = n + 1)
    (hLine : (data.splitOn lineFeed)[n]? = some line) :
    suppresses (ofData data) v = silences line v.ruleId := by
  unfold suppresses silences
  rw [hNumber, lookup_ofData, hLine]
  rfl

/-
  Whether a violation is suppressed is up to its rule and the
  bytes of its line, in these bytes and in any others that
  have the line in the same place.  It is where the directive
  of the line names the rule, or names none.
-/
structure JudgedByLine
    (data : Bytes)
    (v : Violation)
    (n : Nat)
    (line : Bytes) : Prop where
  number : v.location.line = n + 1
  piece : (data.splitOn lineFeed)[n]? = some line
  verdict :
    suppresses (ofData data) v = silences line v.ruleId
  named :
    suppresses (ofData data) v = true ↔
      ofLine? (Utf8.decodeLenient line) = some .all ∨
        ∃ ids,
          ofLine? (Utf8.decodeLenient line) =
              some (.rules ids) ∧
            v.ruleId ∈ ids
  elsewhere :
    ∀ (other : Bytes) (w : Violation),
      (other.splitOn lineFeed)[n]? = some line →
        w.location.line = v.location.line →
          w.ruleId = v.ruleId →
            suppresses (ofData other) w =
              suppresses (ofData data) v

/- The line of a violation is the judge of it. -/
theorem judgedByLine
    {data line : Bytes}
    {v : Violation}
    {n : Nat}
    (hNumber : v.location.line = n + 1)
    (hLine : (data.splitOn lineFeed)[n]? = some line) :
    JudgedByLine data v n line where
  number := hNumber
  piece := hLine
  verdict := suppresses_eq_silences hNumber hLine
  named := by
    rw [suppresses_eq_silences hNumber hLine]
    exact silences_iff
  elsewhere other w hOther hSame hRule := by
    rw [suppresses_eq_silences hNumber hLine,
      suppresses_eq_silences (hSame.trans hNumber) hOther,
      hRule]

end Suppression

------------------------------------------------------------
-- Lines of Violations
------------------------------------------------------------

/- The line of a violation in a file is one of the lines there are. -/
theorem InFileOrder.exists_line
    {f : SourceFile}
    {found : List Violation}
    {v : Violation}
    (h : InFileOrder f found)
    (hMem : v ∈ found) :
    ∃ n line,
      v.location.line = (n : Nat) + 1 ∧
        (f.data.splitOn lineFeed)[n]? = some line := by
  rcases h.comes v hMem with ⟨s, _, hFrom⟩
  have hOffset :=
    (CommentSpacing.covers_of_flagged? hFrom.flagged).1
  have hLine := hFrom.line.trans (f.location_line hOffset)
  have hSplit := List.take_append_drop s.offset.toNat f.data
  have hPiece :=
    SourceFile.splitOn_getElem?_count
      (f.data.take s.offset.toNat) (f.data.drop s.offset.toNat)
  rw [hSplit] at hPiece
  exact ⟨_, _, hLine, hPiece⟩

------------------------------------------------------------
-- Scanning a File
------------------------------------------------------------

namespace FileTree

variable {t : FileTree}
variable {rules : List Rule}
variable {p : Path}
variable {data : Bytes}

/- A file that can be read is linted. -/
theorem scanFile_of_read
    (inlineIgnore : Bool)
    (relative : String)
    (hRead : t.read p = .ok data) :
    t.scanFile rules inlineIgnore p relative =
      .ok (Scan.lintBytes rules inlineIgnore data relative) := by
  unfold scanFile
  rw [hRead]

/-
  The decoded lines of a file are its lines, decoded.  A scan
  that heeds directives finds what a scan that does not finds,
  without the violations that are suppressed, and whether one
  is suppressed is judged by its line.
-/
theorem scanFile_suppresses_by_line
    (data : Bytes) :
    (Utf8.decodeLenient data).splitOn '\n' =
        (data.splitOn lineFeed).map Utf8.decodeLenient ∧
      ∀ (t : FileTree) (p : Path) (relative : String)
        (sel : Selection) (rules : List Rule),
        t.read p = .ok data → sel.build = .ok rules →
          ∃ found,
            t.scanFile rules false p relative = .ok found ∧
              t.scanFile rules true p relative =
                .ok
                  (found.filter fun v =>
                    !Suppression.suppresses
                      (Suppression.ofData data) v) ∧
              ∀ v ∈ found, ∃ n line,
                Suppression.JudgedByLine data v n line := by
  refine ⟨Utf8.splitOn_decodeLenient data, ?_⟩
  intro t p relative sel rules hRead hRules
  have hScans := SourceFile.scans_ofBytes data relative none
  have hOrder := flatMap_violations_inFileOrder hScans hRules
  rw [← lint_eq_flatMap hScans hRules] at hOrder
  refine
    ⟨lint rules (SourceFile.read data relative),
      scanFile_of_read false relative hRead,
      scanFile_of_read true relative hRead, ?_⟩
  intro v hMem
  rcases hOrder.exists_line hMem with
    ⟨n, line, hNumber, hLine⟩
  exact ⟨n, line, Suppression.judgedByLine hNumber hLine⟩

/- A file of two comments, one of them with a directive. -/
def directiveSample : Bytes :=
  Utf8.encode "//x lexlint:ignore\n//y".toList

/- A directory with that file in it. -/
def directiveTree : FileTree :=
  ⟨.directory [("a.c", .file directiveSample)], []⟩

/- The file is read and linted by the rules that run by default. -/
theorem scanFile_suppresses_by_line_sample :
    directiveTree.read ⟨.here, ["a.c"]⟩ = .ok directiveSample ∧
      Selection.build {} = .ok Catalog.rules ∧
      ∃ found,
        directiveTree.scanFile Catalog.rules false
            ⟨.here, ["a.c"]⟩ "a.c" = .ok found ∧
          directiveTree.scanFile Catalog.rules true
              ⟨.here, ["a.c"]⟩ "a.c" =
            .ok
              (found.filter fun v =>
                !Suppression.suppresses
                  (Suppression.ofData directiveSample) v) ∧
          ∀ v ∈ found, ∃ n line,
            Suppression.JudgedByLine directiveSample v n line :=
  ⟨rfl, rfl,
    (scanFile_suppresses_by_line directiveSample).2
      directiveTree ⟨.here, ["a.c"]⟩ "a.c" {} Catalog.rules
      rfl rfl⟩

end FileTree

end CommentLint
