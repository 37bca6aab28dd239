import CommentLint.Config.Basic
import CommentLint.Proofs.Number.WrittenIntegers

/-
  Settings that give a configuration.

  A configuration is read from a table of sections.  Lists may
  be anything that has elements, integers anything that
  converts to one, and the names of rules and their severities
  anything that has a text.  A setting of another kind where
  one of these is needed is where reading fails, and there is
  no other reason.

  Key definitions include:
    * `Setting.hasElements`
    * `Setting.IsIntegral`
    * `Setting.IsWritable`
    * `Setting.NamesRules`
    * `Config.IsScanTable`
    * `Config.IsReadable`

  Key results include:
    * `Setting.exists_toInt_iff`
    * `Setting.exists_toText_iff`
    * `Config.exists_scanOf_iff`
    * `Config.exists_ofSetting_iff`
-/

namespace CommentLint

------------------------------------------------------------
-- Kinds of Settings
------------------------------------------------------------

namespace Setting

variable {s : Setting}

/- Only null is null. -/
theorem isNull_iff :
    s.isNull = true ↔ s = .null := by
  cases s <;> simp [isNull]

/- Whether a setting has elements. -/
def hasElements : Setting → Bool
  | .list _ => true
  | .text _ => true
  | .table _ => true
  | _ => false

/- The settings with elements are those that give them. -/
theorem exists_elements_iff :
    (∃ items, s.elements = .ok items) ↔
      s.hasElements = true := by
  cases s <;> simp [elements, hasElements]

/- Whether a setting converts to an integer. -/
def IsIntegral : Setting → Prop
  | .bool _ => True
  | .integer _ => True
  | .decimal x => ∃ negative m e, x = .finite negative m e
  | .text t => ∃ n, Numeral.read t.toList = .ok n
  | _ => False

/- The settings that convert to an integer are the integral ones. -/
theorem exists_toInt_iff :
    (∃ n, s.toInt = .ok n) ↔ s.IsIntegral := by
  cases s with
  | decimal x => cases x <;> simp [toInt, IsIntegral]
  | text t =>
      unfold toInt IsIntegral
      cases hRead : Numeral.read t.toList with
      | ok n => simp [hRead]
      | error e => cases e <;> simp [hRead]
  | _ => simp [toInt, IsIntegral]

/- An integer that stands somewhere in a setting. -/
inductive Holds (n : Int) : Setting → Prop where
| integer : Holds n (.integer n)
| item
    {s : Setting}
    {items : List Setting}
    (hMem : s ∈ items)
    (hHolds : Holds n s) :
    Holds n (.list items)
| field
    {name : String}
    {s : Setting}
    {fields : List (String × Setting)}
    (hMem : (name, s) ∈ fields)
    (hHolds : Holds n s) :
    Holds n (.table fields)

/- A setting in which no integer has too many digits. -/
def IsWritable (s : Setting) : Prop :=
  ∀ n, Holds n s → n.natAbs < Nat.pow 10 Numeral.digitLimit

/- An integer has a text when it has not too many digits. -/
theorem exists_integerText_iff
    {n : Int} :
    (∃ text, integerText n = .ok text) ↔
      n.natAbs < Nat.pow 10 Numeral.digitLimit := by
  unfold integerText
  simp only [mapError_eq_ok_iff]
  exact Numeral.exists_write_iff

/- A list is writable when its items are. -/
theorem isWritable_list_iff
    {items : List Setting} :
    (list items).IsWritable ↔ ∀ s ∈ items, s.IsWritable := by
  constructor
  · intro h s hMem n hHolds
    exact h n (.item hMem hHolds)
  · rintro h n (_ | ⟨hMem, hHolds⟩)
    exact h _ hMem n hHolds

/- A table is writable when its values are. -/
theorem isWritable_table_iff
    {fields : List (String × Setting)} :
    (table fields).IsWritable ↔
      ∀ f ∈ fields, f.2.IsWritable := by
  constructor
  · rintro h ⟨name, s⟩ hMem n hHolds
    exact h n (.field hMem hHolds)
  · rintro h n (_ | _ | ⟨hMem, hHolds⟩)
    exact h _ hMem n hHolds

/- An integer is writable when it has not too many digits. -/
theorem isWritable_integer_iff
    {n : Int} :
    (integer n).IsWritable ↔
      n.natAbs < Nat.pow 10 Numeral.digitLimit := by
  constructor
  · intro h
    exact h n .integer
  · rintro h _ ⟨⟩
    exact h

mutual

/- The settings that have a literal are the writable ones. -/
theorem exists_literal_iff :
    (s : Setting) →
      ((∃ text, s.literal = .ok text) ↔ s.IsWritable)
  | .null => iff_of_true ⟨_, rfl⟩ (by rintro _ ⟨⟩)
  | .bool _ => iff_of_true ⟨_, rfl⟩ (by rintro _ ⟨⟩)
  | .integer n => by
      rw [isWritable_integer_iff, ← exists_integerText_iff]
      rfl
  | .decimal _ => iff_of_true ⟨_, rfl⟩ (by rintro _ ⟨⟩)
  | .text _ => iff_of_true ⟨_, rfl⟩ (by rintro _ ⟨⟩)
  | .moment _ => iff_of_true ⟨_, rfl⟩ (by rintro _ ⟨⟩)
  | .list items => by
      rw [isWritable_list_iff, ← exists_literals_iff items]
      simp only [literal, exists_bind_iff, pure_eq_ok_iff,
        exists_eq', and_true]
  | .table fields => by
      rw [isWritable_table_iff, ← exists_fieldLiterals_iff fields]
      simp only [literal, exists_bind_iff, pure_eq_ok_iff,
        exists_eq', and_true]

/- Items have literals when they are writable. -/
theorem exists_literals_iff :
    (items : List Setting) →
      ((∃ texts, literals items = .ok texts) ↔
        ∀ s ∈ items, s.IsWritable)
  | [] => by simp [literals]
  | s :: rest => by
      rw [List.forall_mem_cons, ← exists_literal_iff s,
        ← exists_literals_iff rest]
      simp only [literals, exists_bind_iff, pure_eq_ok_iff,
        exists_eq', and_true, exists_and_right]

/- Fields have literals when their values are writable. -/
theorem exists_fieldLiterals_iff :
    (fields : List (String × Setting)) →
      ((∃ texts, fieldLiterals fields = .ok texts) ↔
        ∀ f ∈ fields, f.2.IsWritable)
  | [] => by simp [fieldLiterals]
  | (name, s) :: rest => by
      rw [List.forall_mem_cons, ← exists_literal_iff s,
        ← exists_fieldLiterals_iff rest]
      simp only [fieldLiterals, exists_bind_iff,
        pure_eq_ok_iff, exists_eq', and_true, exists_and_right]

end

/- The settings that have a text are the writable ones. -/
theorem exists_toText_iff :
    (∃ text, s.toText = .ok text) ↔ s.IsWritable := by
  rw [← exists_literal_iff]
  cases s <;> simp [toText, literal]

/- The same, the text being in small letters. -/
theorem exists_lowerText_iff :
    (∃ text, s.lowerText = .ok text) ↔ s.IsWritable := by
  rw [← exists_toText_iff]
  unfold lowerText
  cases s.toText <;> simp [Except.map]

/- A setting whose elements have texts, the names of rules. -/
def NamesRules (s : Setting) : Prop :=
  ∃ items, s.elements = .ok items ∧ ∀ i ∈ items, i.IsWritable

end Setting

------------------------------------------------------------
-- The Scan Section
------------------------------------------------------------

namespace Config

variable {s : Setting}
variable {fields : List (String × Setting)}

/- The names of rules can be read from what names them. -/
theorem exists_ruleNames_iff :
    (∃ names, ruleNames s = .ok names) ↔ s.NamesRules := by
  change
    (∃ names, (s.elements >>= lowerTexts) = .ok names) ↔ _
  simp only [exists_bind_iff, lowerTexts, exists_mapM_iff,
    Setting.exists_lowerText_iff, Setting.NamesRules]

/- An integer can be read from an integral setting. -/
theorem exists_integerOf_iff :
    (∃ n, integerOf s = .ok n) ↔ s.IsIntegral := by
  unfold integerOf
  rw [exists_map_iff, Setting.exists_toInt_iff]

/-
  The only rules to run can be read where they are missing or
  null, and from what names rules.
-/
theorem exists_enabledOf_iff
    {s? : Option Setting} :
    (∃ names?, enabledOf (s?.getD .null) = .ok names?) ↔
      ∀ s, s? = some s → s = .null ∨ s.NamesRules := by
  have hGiven :
      ∀ s,
        (∃ names?, enabledOf s = .ok names?) ↔
          s = .null ∨ s.NamesRules := by
    intro s
    rw [← exists_ruleNames_iff]
    unfold enabledOf
    cases s <;> simp [Setting.isNull, exists_map_iff]
  rw [hGiven]
  cases s? <;> simp

/-
  The fields of the scan section, each of the kind that it is
  read as.  Whether directives count may be said by any value.
-/
@[mk_iff]
structure IsScanTable
    (fields : List (String × Setting)) : Prop where
  exclude :
    ∀ s, fields.lookup "exclude" = some s →
      s.hasElements = true
  includeExtensions :
    ∀ s, fields.lookup "include_extensions" = some s →
      s.hasElements = true
  maxFileSizeKb :
    ∀ s, fields.lookup "max_file_size_kb" = some s →
      s.IsIntegral
  enabledRules :
    ∀ s, fields.lookup "enabled_rules" = some s →
      s = .null ∨ s.NamesRules
  disabledRules :
    ∀ s, fields.lookup "disabled_rules" = some s →
      s.NamesRules
  jobs :
    ∀ s, fields.lookup "jobs" = some s → s.IsIntegral

/- A scan section can be read when its fields have their kinds. -/
theorem exists_scanOf_iff :
    (∃ c, scanOf s = .ok c) ↔
      ∃ fields, s = .table fields ∧ IsScanTable fields := by
  cases s with
  | table fields =>
      simp only [scanOf, exists_bind_iff, Setting.field?,
        Setting.fieldOrNull, Except.map, Except.ok.injEq,
        exists_eq_left', pure_eq_ok_iff, exists_eq',
        exists_and_right, and_true, exists_elim_iff,
        exists_ruleNames_iff, exists_integerOf_iff,
        exists_enabledOf_iff, Setting.exists_elements_iff]
      simp only [Setting.table.injEq, exists_eq_left',
        isScanTable_iff]
  | _ => simp [scanOf, Setting.field?, bind, Except.bind]

------------------------------------------------------------
-- Severities
------------------------------------------------------------

/- Severities can be read when each of them has a text. -/
theorem exists_severitiesOf_iff
    {done : List (String × String)} :
    (∃ levels, severitiesOf done fields = .ok levels) ↔
      ∀ f ∈ fields, (severityOf f.2).IsWritable := by
  induction fields generalizing done with
  | nil => simp [severitiesOf]
  | cons f rest ih =>
      rcases f with ⟨id, value⟩
      rw [List.forall_mem_cons, ← Setting.exists_lowerText_iff]
      unfold severitiesOf
      dsimp only
      cases hNull : (severityOf value).isNull with
      | true =>
          have hText :
              ∃ text, (severityOf value).lowerText = .ok text := by
            rw [Setting.isNull_iff.mp hNull]
            exact ⟨_, rfl⟩
          simp [ih, hText]
      | false =>
          cases hLevel : (severityOf value).lowerText with
          | error e => simp
          | ok level => simp [ih]

------------------------------------------------------------
-- Whole Configurations
------------------------------------------------------------

/- The section of a name, empty when it is missing. -/
def sectionIn
    (sections : List (String × Setting))
    (name : String) : Setting :=
  (sections.lookup name).getD (.table [])

/- A table of sections, each a table of what it is read as. -/
structure IsReadable
    (sections : List (String × Setting)) : Prop where
  scan :
    ∃ fields,
      sectionIn sections "scan" = .table fields ∧
        IsScanTable fields
  rules :
    ∃ fields,
      sectionIn sections "rules" = .table fields ∧
        ∀ f ∈ fields, (severityOf f.2).IsWritable
  gate : ∃ fields, sectionIn sections "quality_gate" = .table fields
  report : ∃ fields, sectionIn sections "report" = .table fields

/- A gate can be read from a table. -/
theorem exists_gateOf_iff :
    (∃ g, gateOf s = .ok g) ↔ ∃ fields, s = .table fields := by
  cases s <;>
    simp [gateOf, Setting.fieldOrNull, Setting.field?,
      Except.map, bind, Except.bind, pure, Except.pure]

/- How a report is written can be read from a table. -/
theorem exists_reportOf_iff :
    (∃ r, reportOf s = .ok r) ↔
      ∃ fields, s = .table fields := by
  cases s <;>
    simp [reportOf, Setting.fieldOrNull, Setting.field?,
      Except.map, bind, Except.bind, pure, Except.pure]

/- The rules of a configuration are the fields of a table. -/
theorem fields_eq_ok_iff :
    s.fields = .ok fields ↔ s = .table fields := by
  cases s <;> simp [Setting.fields]

/- A section is looked up in a table. -/
theorem section?_table
    (sections : List (String × Setting))
    (name : String) :
    Config.section? (.table sections) name =
      .ok (sectionIn sections name) :=
  rfl

/-
  A configuration can be read from the tables of sections whose
  fields have their kinds, and from nothing else.
-/
theorem exists_ofSetting_iff :
    (∃ c, ofSetting s = .ok c) ↔
      ∃ sections, s = .table sections ∧ IsReadable sections := by
  cases s with
  | table sections =>
      simp only [ofSetting, exists_bind_iff, section?_table,
        Except.ok.injEq, exists_eq_left', pure_eq_ok_iff,
        exists_eq', and_true, exists_and_right, exists_scanOf_iff,
        exists_severitiesOf_iff, exists_gateOf_iff,
        exists_reportOf_iff, fields_eq_ok_iff]
      constructor
      · rintro ⟨hScan, fields, hRules, hTexts, hGate, hReport⟩
        exact
          ⟨sections, rfl, hScan, ⟨fields, hRules, hTexts⟩,
            hGate, hReport⟩
      · rintro
          ⟨_, ⟨⟩, hScan, ⟨fields, hRules, hTexts⟩, hGate,
            hReport⟩
        exact ⟨hScan, fields, hRules, hTexts, hGate, hReport⟩
  | _ =>
      simp [ofSetting, section?, Setting.field?, Except.map,
        bind, Except.bind]

/- What a configuration says of the scan is read from a section. -/
theorem exists_scanOf_of_ofSetting
    {c : Config}
    (h : ofSetting s = .ok c) :
    ∃ part, scanOf part = .ok c.scan := by
  simp only [ofSetting, bind_eq_ok_iff, pure_eq_ok_iff] at h
  rcases h with
    ⟨part, _, _, _, _, _, _, _, scan, hScan, _, _, _, _, _, _, _,
      _, rfl⟩
  exact ⟨part, hScan⟩

/- The greatest size of a file is read as an integer. -/
theorem exists_maxFileSizeKb_of_scanOf
    {scan : ScanConfig}
    (h : scanOf s = .ok scan) :
    ∃ n, scan.maxFileSizeKb = .integer n := by
  simp only [scanOf, bind_eq_ok_iff, pure_eq_ok_iff] at h
  rcases h with
    ⟨_, _, _, _, _, _, _, _, size?, _, size, hSize, _, _, _, _, _,
      _, _, _, _, _, _, _, _, _, rfl⟩
  cases size? with
  | none =>
      cases hSize
      exact ⟨1024, rfl⟩
  | some s =>
      rcases map_eq_ok_iff.mp hSize with ⟨n, _, rfl⟩
      exact ⟨n, rfl⟩

end Config

end CommentLint
