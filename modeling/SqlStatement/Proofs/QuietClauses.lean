import SqlStatement.Proofs.Aliases
import SqlStatement.Proofs.ClauseLines
import SqlStatement.Proofs.Identifiers
import SqlStatement.Proofs.Nesting
import SqlStatement.Proofs.QuietTexts

/-!
# Quiet clauses

If the identifiers of a clause are tame, the clause is a quiet text.  The clauses
that come before ORDER BY end in a line break, so that they open what follows.

* `Naming.IsQuiet`, `Naming.isQuiet_of_assign`: the alias of the base table.
* `Selection.opens_listScript` and the lemmas after it: one clause each.
* `Filter.quiet_parenthesised` and the operands: the parts of a WHERE line.
-/

namespace SqlStatement

open Script Text Surface

variable {schema : String} {n : Naming}

/-! ### Names and fields -/

theorem quiet_ofTable {name field : String} (hName : Quiet name.toList)
    (hField : Quiet field.toList) : Quiet (Field.ofTable name field).toList := by
  rw [Field.ofTable, String.toList_append, String.toList_append]
  exact hName.divided (by decide) hField

theorem quiet_commas {l : List String} (h : ∀ s ∈ l, Quiet s.toList) :
    Quiet (commas l).toList := by
  rw [commas, String.toList_intercalate]
  exact Quiet.intercalate (by decide) (List.forall_mem_map.mpr h)

/-- A call, or anything else that is a word and something in parentheses. -/
theorem quiet_call {a b : List Char} (ha : Quiet a) (hb : Whole b) :
    Quiet (a ++ '(' :: (b ++ [')'])) :=
  ha.append_closes (divides_group hb).toCloses

/-- An identifier in quotes. -/
theorem quiet_key {s : String} (h : ∀ c ∈ s.toList, c ∉ marks) :
    Quiet (Selection.key s).toList := by
  have hText : (Selection.key s).toList = '\'' :: (s.toList ++ ['\'']) ++ ", ".toList := by
    simp [Selection.key]
  rw [hText]
  exact (quiet_quotation_of_notMem_marks h).append_closes (by decide)

theorem notMem_marks_column {field : String} (h : ∀ c ∈ field.toList, c ∉ marks) :
    ∀ c ∈ (Field.column field).toList, c ∉ marks := by
  intro c hc
  rw [Field.column] at hc
  split at hc
  · next p hp =>
    obtain ⟨q, hq, rfl⟩ := Option.map_eq_some_iff.mp hp
    have hSpelled := (cutFirst_eq_some_iff.mp hq).1
    rw [String.toList_ofList, List.mem_reverse] at hc
    refine h c ?_
    rw [← List.mem_reverse, hSpelled]
    exact List.mem_append_left _ hc
  · exact h c hc

namespace Naming

/-- The alias of the base table is quiet. -/
def IsQuiet (n : Naming) : Prop := Quiet n.base.toList

theorem quiet_qualify (hn : n.IsQuiet) {field : String} (h : Quiet field.toList) :
    Quiet (n.qualify field).toList := by
  cases n with
  | bare => exact h
  | aliased base tables =>
    rw [qualify]
    split
    · exact h
    · exact quiet_ofTable hn h

theorem closes_suffix (hn : n.IsQuiet) : Closes n.suffix.toList := by
  cases n with
  | bare => exact closes_nil
  | aliased base tables =>
    have hBlank : Divides " ".toList := by decide
    rw [suffix, String.toList_append]
    exact hBlank.closes hn

theorem isQuiet_bare : IsQuiet .bare := quiet_nil

theorem quiet_letters : ∀ l ∈ letters, Quiet l.toList := by decide

theorem isQuiet_of_assign {table : String} {requested : Option String} {joins : List Join}
    {force : Bool} {reserved : List String} {n : Naming} (hTable : Tame table)
    (hRequested : ∀ t ∈ requested, Tame t)
    (h : assign table requested joins force reserved = .ok n) : n.IsQuiet := by
  by_cases hUse : force = true ∨ joins ≠ []
  · obtain ⟨-, hFree⟩ := (assign_eq_ok h).2.2 hUse
    rw [free?, candidates] at hFree
    rcases List.mem_cons.mp (List.mem_of_find?_eq_some hFree) with hBase | hLetter
    · rw [IsQuiet, hBase, preferred]
      cases requested with
      | none =>
        rw [Option.getD_none, String.toList_ofList]
        exact hTable.quiet_initial
      | some name => exact (hRequested name rfl).quiet
    · exact quiet_letters _ hLetter
  · obtain ⟨-, hBare⟩ := assign_of_not_needed hUse
    obtain rfl := Except.ok.inj (hBare.symm.trans h)
    exact isQuiet_bare

end Naming

/-! ### The select list -/

namespace SelectField

variable {f : SelectField}

theorem quiet_expression (hn : n.IsQuiet) (h : ∀ t ∈ f.texts, Tame t) :
    Quiet (f.expression n).toList := by
  have hTarget : Quiet (f.target n).toList := by
    rw [target]
    split
    · decide
    · exact Naming.quiet_qualify hn (h f.field (by simp [texts])).quiet
  rw [expression]
  cases hf : f.function with
  | none => exact hTarget
  | some function =>
    have hUpper : Tame (String.ofList (upper function.toList)) := h _ (by simp [texts, hf])
    show Quiet (if _ then _ else _ : String).toList
    split
    · have hText : ("IFNULL(SUM(" ++ f.target n ++ "), 0)").toList = "IFNULL".toList
          ++ '(' :: ("SUM(".toList ++ (f.target n).toList ++ "), 0".toList ++ [')']) := by
        simp
      rw [hText]
      exact quiet_call (by decide) (hTarget.whole.between (d := 1) (by decide) (by decide))
    · have hText : (String.ofList (upper function.toList) ++ "(" ++ f.target n ++ ")").toList
          = upper function.toList ++ '(' :: ((f.target n).toList ++ [')']) := by
        simp
      have hQuiet := hUpper.quiet
      rw [String.toList_ofList] at hQuiet
      rw [hText]
      exact quiet_call hQuiet hTarget.whole

theorem quiet_written (hn : n.IsQuiet) (h : ∀ t ∈ f.texts, Tame t) :
    Quiet (f.written n).toList := by
  have hExpression := quiet_expression hn h
  rw [written]
  cases ho : f.output with
  | none => exact hExpression
  | some output =>
    show Quiet (f.expression n ++ " " ++ output).toList
    rw [String.toList_append, String.toList_append]
    exact hExpression.divided (by decide) (h output (by simp [texts, ho])).quiet

theorem notMem_marks_outputName (h : ∀ t ∈ f.texts, Tame t) :
    ∀ c ∈ f.outputName.toList, c ∉ marks := by
  rw [outputName]
  cases ho : f.output with
  | none => exact notMem_marks_column (h f.field (by simp [texts])).notMem_marks
  | some output => exact (h output (by simp [texts, ho])).notMem_marks

end SelectField

/-- A JSON sub-select of a select list, ready to be written. -/
structure NamedScript.IsQuiet (schema : String) (j : NamedScript) : Prop where
  name : Tame j.name
  body : Quiet (written schema j.body)

namespace Selection

variable {s : Selection} {json : List NamedScript}

theorem opens_listScript (hn : n.IsQuiet) (hFields : ∀ f ∈ s.fields, ∀ t ∈ f.texts, Tame t)
    (hJson : ∀ j ∈ json, j.IsQuiet schema) : Opens (written schema (s.listScript n json)) := by
  have hItems : ∀ i ∈ s.items n json, Quiet (written schema i) := by
    intro i hi
    rcases List.mem_append.mp hi with hi | hi
    · obtain ⟨f, hf, rfl⟩ := List.mem_map.mp hi
      simpa using SelectField.quiet_written hn (hFields f hf)
    · obtain ⟨j, hj, rfl⟩ := List.mem_map.mp hi
      have hBlank : Divides [' '] := by decide
      simpa using (hJson j hj).body.append_closes (hBlank.closes (hJson j hj).name.quiet)
  have hList : Quiet (written schema (if (s.items n json).isEmpty then [.text "*"]
      else joined ", " (s.items n json))) := by
    split
    · exact (by decide : Quiet "*".toList)
    · rw [written_joined]
      exact Quiet.intercalate (by decide) (List.forall_mem_map.mpr hItems)
  have hHeading : Opens (if s.distinct then "SELECT DISTINCT " else "SELECT ").toList := by
    cases s.distinct <;> decide
  have hBreak : Divides ['\n'] := by decide
  rw [listScript, List.cons_append, written, written_append]
  simpa using hBreak.opens (hHeading.append hList)

theorem whole_objectScript (hn : n.IsQuiet) (hFields : ∀ f ∈ s.fields, ∀ t ∈ f.texts, Tame t)
    (hJson : ∀ j ∈ json, j.IsQuiet schema) : Whole (written schema (s.objectScript n json)) := by
  have hMembers : ∀ i ∈ s.members n json, Whole (written schema i) := by
    intro i hi
    rcases List.mem_append.mp hi with hi | hi
    · obtain ⟨f, hf, rfl⟩ := List.mem_map.mp hi
      have hKey := quiet_key (SelectField.notMem_marks_outputName (hFields f hf))
      have hExpression := SelectField.quiet_expression hn (hFields f hf)
      simpa using hKey.whole.append hExpression.whole
    · obtain ⟨j, hj, rfl⟩ := List.mem_map.mp hi
      have hKey := quiet_key (hJson j hj).name.notMem_marks
      simpa using hKey.whole.append (hJson j hj).body.whole
  have hList : Whole (written schema (joined ", " (s.members n json))) := by
    rw [written_joined]
    exact Whole.intercalate (by decide) (List.forall_mem_map.mpr hMembers)
  have hFront : walk .top "SELECT JSON_ARRAYAGG(JSON_OBJECT(".toList = .level 2 .outside := by
    decide
  have hBack : walk (.level 2 .outside) "))\n".toList = .top := by decide
  rw [objectScript, List.cons_append, written, written_append, ← List.append_assoc]
  simpa using hList.between hFront hBack

end Selection

/-! ### FROM and its JSON tables -/

theorem JsonColumn.whole_written {c : JsonColumn} (h : ∀ s ∈ [c.property, c.type, c.path], Tame s) :
    Whole c.written.toList := by
  have hText : c.written.toList = c.property.toList ++ " ".toList ++ c.type.toList
      ++ " PATH ".toList ++ '\'' :: (c.path.toList ++ ['\'']) := by
    simp [written]
  have hPath := quiet_quotation_of_notMem_marks (h c.path (by simp)).notMem_marks
  rw [hText]
  exact ((((h c.property (by simp)).quiet.whole.append (by decide)).append
    (h c.type (by simp)).quiet.whole).append (by decide)).append hPath.whole

theorem JsonSource.whole_written (hn : n.IsQuiet) {s : JsonSource} (h : Tame s.field) :
    Whole (s.written n).toList := by
  have hField : Whole (n.qualify s.field).toList := (Naming.quiet_qualify hn h.quiet).whole
  cases s with
  | document field => exact hField
  | keyValue field =>
    have hText : ((JsonSource.keyValue field).written n).toList = "JSON_KEY_VALUE(".toList
        ++ (n.qualify field).toList ++ ", '$')".toList := by
      simp [written]
    rw [hText]
    exact hField.between (d := 1) (by decide) (by decide)

theorem JsonTable.closes_script (hn : n.IsQuiet) {t : JsonTable} (h : ∀ s ∈ t.texts, Tame s) :
    Closes (written schema (t.script n)) := by
  have hName : Tame t.name := h _ (by simp [texts])
  have hPath : Tame t.path := h _ (by simp [texts])
  rw [script]
  split
  · exact closes_nil
  · exact closes_nil
  · next source hSource _ =>
    have hSourceText : Whole (source.written n).toList :=
      JsonSource.whole_written hn (h _ (by simp [texts, sourceFields, hSource]))
    have hColumns : Whole (", ".intercalate (t.columns.map JsonColumn.written)).toList := by
      rw [String.toList_intercalate]
      refine Whole.intercalate (by decide) (List.forall_mem_map.mpr (List.forall_mem_map.mpr ?_))
      exact fun c hc => JsonColumn.whole_written fun s hs =>
        h s (List.mem_append_right _ (List.mem_flatMap.mpr ⟨c, hc, hs⟩))
    have hQuoted := (quiet_quotation_of_notMem_marks hPath.notMem_marks).whole
    have hText : written schema [.text (", JSON_TABLE(" ++ source.written n ++ ", '" ++ t.path
          ++ "' COLUMNS (" ++ ", ".intercalate (t.columns.map JsonColumn.written) ++ ")) "
          ++ t.name)]
        = ", JSON_TABLE".toList ++ '(' :: ((source.written n).toList ++ ", ".toList
          ++ '\'' :: (t.path.toList ++ ['\'']) ++ " COLUMNS ".toList
          ++ '(' :: ((", ".intercalate (t.columns.map JsonColumn.written)).toList ++ [')'])
          ++ [')'])
          ++ (" ".toList ++ t.name.toList) := by
      simp
    have hInner := (((hSourceText.append (by decide : Whole ", ".toList)).append hQuoted).append
      (by decide : Whole " COLUMNS ".toList)).append hColumns.parenthesised
    have hCall : Closes (", JSON_TABLE".toList ++ '(' :: (_ ++ [')'])) :=
      Closes.append_closes (by decide) (divides_group hInner).toCloses
    have hBlank : Divides " ".toList := by decide
    rw [hText]
    exact hCall.append_closes (hBlank.closes hName.quiet)

/-- The base table and what stands behind it. -/
theorem Selection.opens_fromScript (hSchema : Tame schema) (hn : n.IsQuiet) {table : String}
    (hTable : Tame table) {s : Selection} (h : ∀ t ∈ s.jsonTables, ∀ p ∈ t.texts, Tame p) :
    Opens (written schema (s.fromScript n table)) := by
  have hTables : Closes (written schema (s.jsonTables.flatMap (JsonTable.script n))) := by
    rw [written_flatMap, List.flatMap_def]
    exact Closes.flatten (List.forall_mem_map.mpr fun t ht => JsonTable.closes_script hn (h t ht))
  have hFrom : Opens "FROM ".toList := by decide
  have hBase : Quiet (schema.toList ++ ".".toList ++ table.toList) :=
    hSchema.quiet.divided (by decide) hTable.quiet
  have hBreak : Divides ['\n'] := by decide
  have hText : written schema (s.fromScript n table) = "FROM ".toList
      ++ (schema.toList ++ ".".toList ++ table.toList) ++ (n.suffix.toList
      ++ written schema (s.jsonTables.flatMap (JsonTable.script n))) ++ ['\n'] := by
    simp [fromScript]
  rw [hText]
  exact hBreak.opens ((hFrom.append hBase).append_closes
    ((Naming.closes_suffix hn).append_closes hTables))

/-! ### Joins -/

theorem Operator.closes_fragment (op : Operator) : Closes op.fragment.toList := by
  cases op <;> decide

theorem Operator.divides_fragment {op : Operator} (h : op.isComparison = true) :
    Divides op.fragment.toList := by
  revert h
  cases op <;> decide

theorem OnTerm.closes_script (hn : n.IsQuiet) {name : String} (hName : Tame name) {t : OnTerm}
    (h : ∀ s ∈ t.texts, Tame s) : Closes (written schema (t.script n name)) := by
  have hAnd : Divides " AND ".toList := by decide
  have hField : Quiet (Field.ofTable name t.field).toList :=
    quiet_ofTable hName.quiet (h _ (by simp [texts])).quiet
  rw [script]
  by_cases hNull : t.operator.isNullTest = true
  · simp only [hNull, if_true]
    simpa using hAnd.closes (hField.append_closes t.operator.closes_fragment)
  by_cases hComparison : t.operator.isComparison = true
  · have hCompared : ∀ {right : String}, Quiet right.toList →
        Closes (" AND ".toList ++ ((Field.ofTable name t.field).toList
          ++ t.operator.fragment.toList ++ right.toList)) := fun hRight =>
      hAnd.closes (hField.divided (Operator.divides_fragment hComparison) hRight)
    simp only [hNull, hComparison, if_true]
    cases hTarget : t.target with
    | field foreign =>
      have hForeign : Tame foreign := h _ (by simp [texts, foreign?, hTarget])
      simpa using hCompared (Naming.quiet_qualify hn hForeign.quiet)
    | value v => simpa using hCompared (quiet_literal v)
  · simp only [hNull, hComparison]
    exact closes_nil

theorem Join.opens_script (hSchema : Tame schema) (hn : n.IsQuiet) {j : Join}
    (h : ∀ t ∈ j.texts, Tame t) : Opens (written schema (j.script n)) := by
  have hTable : Tame j.table := h _ (by simp [texts])
  have hName : Tame j.name := h _ (by simp [texts])
  have hField : Tame j.field := h _ (by simp [texts])
  have hForeign : Tame j.foreign := h _ (by simp [texts])
  have hTerms : Closes (written schema (j.terms.flatMap (OnTerm.script n j.name))) := by
    rw [written_flatMap, List.flatMap_def]
    refine Closes.flatten (List.forall_mem_map.mpr fun t ht => OnTerm.closes_script hn hName ?_)
    exact fun s hs => h s (List.mem_append_right _ (List.mem_flatMap.mpr ⟨t, ht, hs⟩))
  have hKeyword : Opens (j.mode.keyword.toList ++ " ".toList) := by cases j.mode <;> decide
  have hBlank : Divides " ".toList := by decide
  have hOn : Divides " ON ".toList := by decide
  have hBreak : Divides ['\n'] := by decide
  have hNamed : Quiet (schema.toList ++ ".".toList ++ j.table.toList ++ " ".toList
      ++ j.name.toList) :=
    (hSchema.quiet.divided (by decide) hTable.quiet).divided hBlank hName.quiet
  have hEqual : Quiet ((Field.ofTable j.name j.field).toList ++ "=".toList
      ++ (n.qualify j.foreign).toList) :=
    (quiet_ofTable hName.quiet hField.quiet).divided (by decide)
      (Naming.quiet_qualify hn hForeign.quiet)
  have hText : written schema (j.script n) = j.mode.keyword.toList ++ " ".toList
      ++ (schema.toList ++ ".".toList ++ j.table.toList ++ " ".toList ++ j.name.toList)
      ++ (" ON ".toList ++ ((Field.ofTable j.name j.field).toList ++ "=".toList
        ++ (n.qualify j.foreign).toList))
      ++ written schema (j.terms.flatMap (OnTerm.script n j.name)) ++ ['\n'] := by
    simp [script]
  rw [hText]
  exact hBreak.opens (((hKeyword.append hNamed).append_closes (hOn.closes hEqual)).append_closes
    hTerms)

theorem Join.opens_scripts (hSchema : Tame schema) (hn : n.IsQuiet) {joins : List Join}
    (h : ∀ j ∈ joins, ∀ t ∈ j.texts, Tame t) : Opens (written schema (scripts n joins)) := by
  rw [scripts, written_flatMap, List.flatMap_def]
  exact Opens.flatten (List.forall_mem_map.mpr fun j hj => opens_script hSchema hn (h j hj))

/-! ### WHERE -/

structure Correlation.IsQuiet (c : Correlation) : Prop where
  inner : Quiet c.inner.toList
  outer : Quiet c.outer.toList

theorem opens_whereScript (hn : n.IsQuiet) {correlation : Option Correlation}
    (hCorrelation : ∀ c ∈ correlation, c.IsQuiet) (row : Option UInt64) {terms : List Script}
    (h : ∀ t ∈ terms, Quiet (written schema t)) :
    Opens (written schema (whereScript n correlation row terms)) := by
  have hEqual : ∀ {field right : String}, Quiet field.toList → Quiet right.toList →
      Quiet (written schema [.text (n.qualify field ++ "=" ++ right)]) := fun hField hRight => by
    simpa using (Naming.quiet_qualify hn hField).divided (by decide : Divides ['=']) hRight
  have hTerms : ∀ t ∈ whereTerms n correlation row terms, Quiet (written schema t) := by
    intro t ht
    simp only [whereTerms, List.mem_append, Option.mem_toList, Option.map_eq_some_iff] at ht
    rcases ht with (⟨c, hc, rfl⟩ | ⟨id, -, rfl⟩) | ht
    · exact hEqual (hCorrelation c hc).inner (hCorrelation c hc).outer
    · exact hEqual (by decide) (quiet_natRepr _)
    · exact h t ht
  rw [whereScript_eq]
  split
  · exact opens_nil
  · have hHeading : Opens "WHERE ".toList := by decide
    have hBreak : Divides ['\n'] := by decide
    have hLine := Quiet.intercalate (by decide : Divides " AND ".toList)
      (List.forall_mem_map.mpr hTerms)
    rw [List.cons_append, written, written_append, written_joined]
    simpa using hBreak.opens (hHeading.append hLine)

namespace Filter

theorem quiet_guarded {verdict : Except CompileError Unit} {s : Script}
    (h : Quiet (written schema s)) : Quiet (written schema (guarded verdict s)) := by
  cases verdict with
  | error e => exact quiet_nil
  | ok u => exact h

theorem quiet_parenthesised {alternatives : List Script}
    (h : ∀ s ∈ alternatives, Quiet (written schema s)) :
    ∀ t ∈ parenthesised alternatives, Quiet (written schema t) := by
  intro t ht
  cases alternatives with
  | nil => cases ht
  | cons a rest =>
    rw [List.mem_singleton.mp ht, List.cons_append, written, written_append, written_joined]
    exact quiet_group (Quiet.intercalate (by decide) (List.forall_mem_map.mpr h)).whole

/-- A nested text in parentheses. -/
theorem closes_enclosed {l : List Char} (h : Whole l) : Closes (' ' :: '(' :: (l ++ [')'])) :=
  (by decide : Closes [' ']).append_closes (divides_group h).toCloses

theorem closes_listOperand (field : String) (op : Operator) (values : List Value) :
    Closes (written schema (listOperand field op values)) := by
  cases values with
  | nil => exact closes_nil
  | cons v rest =>
    have hList : Quiet (written schema (Script.placeholders (v :: rest))) := by
      rw [Script.placeholders, written_joined, List.map_map]
      refine Quiet.intercalate (by decide) (List.forall_mem_map.mpr fun _ _ => ?_)
      exact (by decide : Quiet ['?'])
    rw [listOperand, List.cons_append, written, written_append]
    · exact closes_enclosed hList.whole
    · exact List.cons_ne_nil _ _

theorem closes_rangeOperand (low high : Value) :
    Closes (written schema (rangeOperand low high)) :=
  (by decide : Closes " ? AND ?".toList)

end Filter

/-! ### GROUP BY -/

theorem Selection.opens_listed {heading : String} (hHeading : Opens heading.toList)
    {items : List String} (h : ∀ s ∈ items, Quiet s.toList) :
    Opens (listedLine heading items).toList := by
  rw [listedLine]
  split
  · exact opens_nil
  · have hBreak : Divides "\n".toList := by decide
    rw [String.toList_append, String.toList_append]
    exact hBreak.opens (hHeading.append (quiet_commas h))

end SqlStatement
