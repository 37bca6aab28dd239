import CommentLint.Proofs.Config.Acceptance
import Mathlib

/-
  Text reports that can be read back.

  A path may hold colons, spaces and even the text of a whole
  report line, so a line is read from its end.  There it has
  what the one rule says of itself, the same in every line.
  In front of that stand a severity and two numbers, none of
  which holds a colon; what is left is the path.

  Key definitions include:
    * `CommentSpacing.IsFinding`
    * `FileTree.ScansReadably`
    * `Report.linesOf`
    * `Violation.SamePlace`

  Key results include:
    * `FileTree.ScansReadably.isFinding`
    * `Report.line_eq_iff`
    * `Report.linesOf_textForm`
    * `Report.textForm_decodable`
-/

namespace CommentLint

/- A violation at the same place as another, and as severe. -/
structure Violation.SamePlace (v w : Violation) : Prop where
  path : v.location.path = w.location.path
  line : v.location.line = w.location.line
  column : v.location.column = w.location.column
  severity : v.severity = w.severity

/- A result whose paths have no line feeds. -/
def ScanResult.HasOneLinePaths (result : ScanResult) : Prop :=
  ∀ v ∈ result.violations, '\n' ∉ v.location.path.toList

------------------------------------------------------------
-- Findings of the Rule
------------------------------------------------------------

/- A violation that the one rule finds. -/
structure CommentSpacing.IsFinding (v : Violation) : Prop where
  ruleId : v.ruleId = info.identifier
  title : v.title = info.name
  message : v.message = info.description
  severity : v.severity.IsRanked

/- Rules that are the one rule, at severities with ranks. -/
def CommentSpacing.AreOnly (rules : List Rule) : Prop :=
  ∀ q ∈ rules, ∃ s : Severity, s.IsRanked ∧ q = rule s

/- The rules of a selection are the one rule. -/
theorem Selection.areOnly_of_build
    {sel : Selection}
    {rules : List Rule}
    (h : sel.build = .ok rules) :
    CommentSpacing.AreOnly rules := by
  intro q hMem
  have hRanked := isRanked_of_build h hMem
  rcases sel.rules_of_build h with rfl | ⟨s, rfl⟩
  · cases hMem
  · rw [List.mem_singleton] at hMem
    subst hMem
    exact ⟨s, hRanked, rfl⟩

section Findings

variable {t : FileTree}
variable {r : Scan.Request}
variable {p : Path}
variable {result : ScanResult}
variable {v : Violation}

/- What the one rule finds in a file are its findings. -/
theorem CommentSpacing.AreOnly.isFinding
    {rules : List Rule}
    {f : SourceFile}
    (h : AreOnly rules)
    (hMem : v ∈ lint rules f) :
    IsFinding v := by
  rcases exists_violationAt_of_mem_lint hMem with
    ⟨q, hRule, _, rfl⟩
  rcases h q hRule with ⟨s, hRanked, rfl⟩
  exact ⟨rfl, rfl, rfl, hRanked⟩

/-
  A scan by the one rule that gives a result, and of which all
  files can be read.
-/
structure FileTree.ScansReadably
    (t : FileTree)
    (r : Scan.Request)
    (p : Path)
    (result : ScanResult) : Prop where
  rules : CommentSpacing.AreOnly r.rules
  scan : t.scan r p = .ok result
  readable :
    ∀ files, t.scanned r p = .ok files →
      ∀ f ∈ files, ∃ data, t.read f.1 = .ok data

/- All that is found in files that can be read are findings. -/
theorem FileTree.ScansReadably.isFinding
    (h : t.ScansReadably r p result)
    (hMem : v ∈ result.violations) :
    CommentSpacing.IsFinding v := by
  rcases bind_eq_ok_iff.mp h.scan with ⟨files, hFiles, hScan⟩
  rcases exists_scanFile_of_scanFiles hScan hMem with
    ⟨f, hFile, found, hFound, hMem⟩
  rcases h.readable files hFiles f hFile with ⟨data, hRead⟩
  rw [scanFile_of_read _ _ hRead] at hFound
  cases hFound
  exact h.rules.isFinding (Scan.lintBytes_sublist.subset hMem)

end Findings

------------------------------------------------------------
-- Texts Cut at Their Last Separator
------------------------------------------------------------

section Separators

variable {α : Type}
variable {x : α}
variable {before before' after after' : List α}

/- There is one way to cut a text at the last place of a character. -/
theorem cut_unique
    (h : before ++ x :: after = before' ++ x :: after')
    (hAfter : x ∉ after)
    (hAfter' : x ∉ after') :
    before = before' ∧ after = after' := by
  -- Were the places apart, one would lie behind the other.
  rcases List.append_eq_append_iff.mp h with
    ⟨between, rfl, hBehind⟩ | ⟨between, rfl, hBehind⟩
  · cases between with
    | nil =>
        cases hBehind
        exact ⟨(List.append_nil _).symm, rfl⟩
    | cons y between =>
        cases hBehind
        simp at hAfter
  · cases between with
    | nil =>
        cases hBehind
        exact ⟨List.append_nil _, rfl⟩
    | cons y between =>
        cases hBehind
        simp at hAfter'

end Separators

/- A number holds digits and perhaps a sign. -/
theorem not_mem_repr
    {c : Char}
    (hDigit : c.isDigit = false)
    (hSign : c ≠ '-')
    (n : Int) :
    c ∉ n.repr.toList := by
  have hDigits (m : Nat) : c ∉ m.repr.toList := by
    intro hMem
    rw [Nat.toList_repr] at hMem
    have hIs :=
      Nat.isDigit_of_mem_toDigits (by decide) (by decide) hMem
    rw [hDigit] at hIs
    cases hIs
  rw [Int.repr_eq_if]
  split
  · exact hDigits _
  · rw [String.toList_append, List.mem_append, not_or]
    exact ⟨by simpa using hSign, hDigits _⟩

namespace Report

variable {v w : Violation}

------------------------------------------------------------
-- Lines
------------------------------------------------------------

/- The place of a violation, as its line gives it. -/
def place (v : Violation) : String :=
  v.location.path ++ ":" ++ v.location.line.repr ++ ":" ++
    v.location.column.repr

/- What the one rule says of itself at the end of a line. -/
def remark : String :=
  ": " ++ CommentSpacing.info.name ++ " Violation: " ++
    CommentSpacing.info.description ++ " (" ++
    CommentSpacing.info.identifier ++ ")"

/- The line of a finding is a place, a severity and a remark. -/
theorem line_eq
    (h : CommentSpacing.IsFinding v) :
    line v = place v ++ (": " ++ v.severity.label) ++ remark := by
  unfold line place remark
  rw [h.title, h.message, h.ruleId]
  simp only [String.append_assoc]

/- A text that ends in a severity ends in no other. -/
theorem severity_eq_of_append_eq
    {a b : String}
    {s s' : Severity}
    (hRanked : s.IsRanked)
    (hRanked' : s'.IsRanked)
    (h : a ++ (": " ++ s.label) = b ++ (": " ++ s'.label)) :
    s = s' := by
  have hLast := congrArg (fun t : String => t.toList.getLast?) h
  rcases hRanked with rfl | rfl <;>
    rcases hRanked' with rfl | rfl <;>
      simp [Severity.label] at hLast ⊢

/- The characters of a place, cut at the colons behind its path. -/
theorem toList_place (v : Violation) :
    (place v).toList =
      (v.location.path.toList ++
          ':' :: v.location.line.repr.toList) ++
        ':' :: v.location.column.repr.toList := by
  simp [place]

/- A place tells its path, its line and its column. -/
theorem place_inj
    (h : place v = place w) :
    v.location.path = w.location.path ∧
      v.location.line = w.location.line ∧
        v.location.column = w.location.column := by
  have hColon (n : Int) : ':' ∉ n.repr.toList :=
    not_mem_repr (by decide) (by decide) n
  have hPlaces := congrArg String.toList h
  rw [toList_place, toList_place] at hPlaces
  rcases cut_unique hPlaces (hColon _) (hColon _) with
    ⟨hFront, hColumn⟩
  rcases cut_unique hFront (hColon _) (hColon _) with
    ⟨hPath, hLine⟩
  exact
    ⟨String.toList_injective hPath,
      Int.repr_injective (String.toList_injective hLine),
      Int.repr_injective (String.toList_injective hColumn)⟩

/- Lines of findings tell their places and severities. -/
theorem line_eq_iff
    (hFinding : CommentSpacing.IsFinding v)
    (hFinding' : CommentSpacing.IsFinding w) :
    line v = line w ↔ v.SamePlace w := by
  rw [line_eq hFinding, line_eq hFinding', String.append_left_inj]
  constructor
  · intro h
    have hSeverity :=
      severity_eq_of_append_eq hFinding.severity
        hFinding'.severity h
    rw [hSeverity, String.append_left_inj] at h
    rcases place_inj h with ⟨hPath, hLine, hColumn⟩
    exact ⟨hPath, hLine, hColumn, hSeverity⟩
  · intro h
    rw [place, place, h.path, h.line, h.column, h.severity]

/- Lines of findings, one by one, tell the same of each of them. -/
theorem map_line_eq_iff
    {vs ws : List Violation}
    (hFindings : ∀ v ∈ vs, CommentSpacing.IsFinding v)
    (hFindings' : ∀ w ∈ ws, CommentSpacing.IsFinding w) :
    vs.map line = ws.map line ↔
      List.Forall₂ Violation.SamePlace vs ws := by
  induction vs generalizing ws with
  | nil => simp [List.forall₂_nil_left_iff, eq_comm]
  | cons v vs ih =>
      cases ws with
      | nil => simp
      | cons w ws =>
          rw [List.forall_mem_cons] at hFindings hFindings'
          rw [List.map_cons, List.map_cons, List.cons.injEq,
            List.forall₂_cons,
            line_eq_iff hFindings.1 hFindings'.1,
            ih hFindings.2 hFindings'.2]

/- The line of a finding has no line feed but those of its path. -/
theorem lineFeed_not_mem_line
    (hFinding : CommentSpacing.IsFinding v)
    (hPath : '\n' ∉ v.location.path.toList) :
    '\n' ∉ (line v).toList := by
  have hNumber (n : Int) : '\n' ∉ n.repr.toList :=
    not_mem_repr (by decide) (by decide) n
  have hLabel : '\n' ∉ v.severity.label.toList := by
    rcases hFinding.severity with hSeverity | hSeverity <;>
      rw [hSeverity] <;> decide
  have hRemark : '\n' ∉ remark.toList := by decide
  rw [line_eq hFinding]
  simp only [place, String.toList_append, List.mem_append, not_or]
  exact
    ⟨⟨⟨⟨⟨⟨hPath, by decide⟩, hNumber _⟩, by decide⟩,
      hNumber _⟩, by decide, hLabel⟩, hRemark⟩

------------------------------------------------------------
-- Texts
------------------------------------------------------------

/- The lines of a text; the empty text has none. -/
def linesOf (text : String) : List String :=
  if text.isEmpty then []
  else (text.toList.splitOn '\n').map String.ofList

variable {result result' : ScanResult}

/- The characters of a text are its lines with line feeds between. -/
theorem toList_textForm (result : ScanResult) :
    (textForm result).toList =
      ['\n'].intercalate
        ((result.violations.map line).map String.toList) := by
  unfold textForm
  rw [String.toList_intercalate]
  rfl

/- A line of a violation holds more than nothing. -/
theorem line_ne_empty (v : Violation) : line v ≠ "" := by
  simp [line]

/- Only the text of no violations is empty. -/
theorem textForm_eq_empty_iff :
    textForm result = "" ↔ result.violations = [] := by
  constructor
  · intro h
    have hChars := congrArg String.toList h
    rw [toList_textForm] at hChars
    rcases hFound : result.violations with _ | ⟨v, rest⟩
    · rfl
    · rw [hFound] at hChars
      cases rest with
      | nil => simp [line_ne_empty] at hChars
      | cons w rest => simp [line_ne_empty] at hChars
  · intro h
    rw [textForm, h]
    rfl

/- The text of a result has one line for each violation. -/
theorem linesOf_textForm
    (h : ∀ v ∈ result.violations, '\n' ∉ (line v).toList) :
    linesOf (textForm result) = result.violations.map line := by
  unfold linesOf
  by_cases hNone : result.violations = []
  · rw [if_pos (by simp [textForm, hNone]), hNone]
    rfl
  · have hSome : (textForm result).isEmpty = false := by
      simpa [textForm_eq_empty_iff] using hNone
    have hSplit :
        (textForm result).toList.splitOn '\n' =
          (result.violations.map line).map String.toList := by
      rw [toList_textForm]
      apply List.splitOn_intercalate
      · simpa using h
      · simpa using hNone
    rw [hSome, hSplit]
    simp

------------------------------------------------------------
-- Reports of Scans
------------------------------------------------------------

variable {t t' : FileTree}
variable {r r' : Scan.Request}
variable {p p' : Path}

/- A scan of files that can be read has a line for each violation. -/
theorem linesOf_textForm_of_scan
    (hScan : t.ScansReadably r p result)
    (hPaths : result.HasOneLinePaths) :
    linesOf (textForm result) = result.violations.map line :=
  linesOf_textForm fun v hMem =>
    lineFeed_not_mem_line (hScan.isFinding hMem) (hPaths v hMem)

/-
  The text report of a scan of files that can be read has one
  line for each violation, and is empty only where there is
  none.  Two scans have the same report only where they report
  the same places with the same severities, in the same order.
-/
theorem textForm_decodable
    (hScan : t.ScansReadably r p result)
    (hScan' : t'.ScansReadably r' p' result')
    (hPaths : result.HasOneLinePaths)
    (hPaths' : result'.HasOneLinePaths) :
    linesOf (textForm result) = result.violations.map line ∧
      (textForm result = "" ↔ result.violations = []) ∧
      (textForm result = textForm result' ↔
        List.Forall₂ Violation.SamePlace result.violations
          result'.violations) := by
  have hLines := linesOf_textForm_of_scan hScan hPaths
  have hLines' := linesOf_textForm_of_scan hScan' hPaths'
  have hSame :=
    map_line_eq_iff (fun _ => hScan.isFinding)
      (fun _ => hScan'.isFinding)
  refine ⟨hLines, textForm_eq_empty_iff, ?_⟩
  rw [← hSame]
  constructor
  · intro hText
    rw [← hLines, ← hLines', hText]
  · intro hEntries
    rw [textForm, textForm, hEntries]

end Report

------------------------------------------------------------
-- A Path Like a Report Line
------------------------------------------------------------

/- A name that starts like a report line. -/
def forgedName : String :=
  "a.c:1:3: error: b.c"

/- A directory with one file, which has that name. -/
def forgedTree : FileTree :=
  ⟨.directory
      [("proj", .directory [(forgedName, .file [47, 47, 120])])],
    ["proj"]⟩

/- A request for files at a severity. -/
def requestAt (s : Severity) : Scan.Request :=
  { rules := [CommentSpacing.rule s]
    exclude := []
    includeExtensions := [.text ".c"]
    maxFileSizeKb := .integer 1024
    inlineIgnore := false
    jobs := .integer 1 }

/- Its rules are those of a selection with the severity. -/
theorem build_requestAt
    {s : Severity}
    (h : s.IsRanked) :
    Selection.build
        { severities :=
            [(CommentSpacing.info.identifier, .text s.label)] } =
      .ok (requestAt s).rules := by
  rcases h with rfl | rfl
  · rfl
  · rfl

/- What is found in the file. -/
def forgedResult (s : Severity) : ScanResult :=
  { violations :=
      [
        { ruleId := CommentSpacing.info.identifier
          title := CommentSpacing.info.name
          severity := s
          message := CommentSpacing.info.description
          location :=
            { path := forgedName
              offset := 2
              line := 1
              column := 3 } }
      ]
    filesScanned := 1 }

namespace FileTree

/- The file is collected. -/
theorem collect_forgedTree :
    forgedTree.collect (.ofExtensions [] [".c"] (.integer 1024))
        ⟨.root, ["proj"]⟩ =
      .ok [⟨.root, ["proj", forgedName]⟩] := by
  have hTree : forgedTree.WellFormed :=
    ⟨Node.wellFormed_of_places _ (by decide), ⟨_, rfl⟩⟩
  rw [collect_eq_taken hTree rfl, candidatesBelow_singleton]
  rfl

/- What is found in the file has the severity asked for. -/
theorem scanFile_forgedTree (s : Severity) :
    forgedTree.scanFile (requestAt s).rules false
        ⟨.root, ["proj", forgedName]⟩ forgedName =
      .ok (forgedResult s).violations := by
  have hFound :
      (requestAt s).rules.flatMap
          (fun q =>
            q.violations
              (SourceFile.read [47, 47, 120] forgedName)) =
        (forgedResult s).violations :=
    rfl
  have hLint :
      Scan.lintBytes (requestAt s).rules false [47, 47, 120]
          forgedName =
        (forgedResult s).violations := by
    change lint _ _ = _
    rw [lint, hFound]
    exact List.mergeSort_singleton _
  rw [scanFile_of_read _ _ rfl, hLint]

/- The file is read, and its finding is the result. -/
theorem scansReadably_forgedTree
    {s : Severity}
    (h : s.IsRanked) :
    forgedTree.ScansReadably (requestAt s) ⟨.here, []⟩
      (forgedResult s) := by
  have hScanned :
      forgedTree.scanned (requestAt s) ⟨.here, []⟩ =
        .ok [(⟨.root, ["proj", forgedName]⟩, forgedName)] :=
    scanned_of_collect rfl rfl rfl collect_forgedTree rfl rfl
  constructor
  case rules =>
    exact Selection.areOnly_of_build (build_requestAt h)
  case scan =>
    have hAll :
        [(Path.mk .root ["proj", forgedName], forgedName)].mapM
            (fun f =>
              forgedTree.scanFile (requestAt s).rules false f.1
                f.2) =
          .ok [(forgedResult s).violations] := by
      rw [List.mapM_cons, scanFile_forgedTree]
      rfl
    have hMerged :
        Violation.merged [(forgedResult s).violations].flatten =
          (forgedResult s).violations :=
      List.mergeSort_singleton _
    rw [scan, hScanned]
    exact
      (scanFiles_of_mapM hAll).trans
        (congrArg
          (fun vs => Except.ok (ScanResult.mk vs 1)) hMerged)
  case readable =>
    intro files hFiles f hMem
    rw [hScanned] at hFiles
    cases hFiles
    rw [List.mem_singleton.mp hMem]
    exact ⟨_, rfl⟩

end FileTree

namespace Report

/-
  The name is read back as a whole, and the severities of two
  scans tell their reports apart.
-/
theorem textForm_decodable_forged :
    forgedTree.ScansReadably (requestAt .warning) ⟨.here, []⟩
        (forgedResult .warning) ∧
      forgedTree.ScansReadably (requestAt .error) ⟨.here, []⟩
        (forgedResult .error) ∧
      linesOf (textForm (forgedResult .warning)) =
        (forgedResult .warning).violations.map line ∧
      textForm (forgedResult .warning) ≠
        textForm (forgedResult .error) := by
  have hWarning :=
    FileTree.scansReadably_forgedTree (s := .warning) (Or.inl rfl)
  have hError :=
    FileTree.scansReadably_forgedTree (s := .error) (Or.inr rfl)
  have hPaths (s : Severity) :
      (forgedResult s).HasOneLinePaths := by
    intro v hMem
    rw [List.mem_singleton.mp hMem]
    change '\n' ∉ forgedName.toList
    decide
  rcases textForm_decodable hWarning hError (hPaths _) (hPaths _)
    with ⟨hLines, _, hText⟩
  refine ⟨hWarning, hError, hLines, ?_⟩
  intro hSame
  rcases hText.mp hSame with _ | ⟨hEntry, _⟩
  exact absurd hEntry.severity (by decide)

end Report

end CommentLint
