import SqlStatement.Proofs.Clauses
import SqlStatement.Proofs.Identifiers
import SqlStatement.Proofs.TextRule

/-!
# Clauses that keep a rule

If the identifiers of a clause are names of a rule, the clause keeps the rule.
Values only enter the text of a join, as literals that keep it by assumption.

* `Naming.Keeps`, `Naming.keeps_assign`: the alias of the base table is a name.
* `OnTerm.meets_script`: here a value enters the text.
* `meets_whereScript` and the lemmas before it: one clause each.
-/

namespace SqlStatement

open Script Text TextRule

variable {R : TextRule}

/-! ### Names and fields -/

theorem TextRule.name_column {field : String} (h : R.Name field) : R.Name (Field.column field) := by
  rw [Field.column]
  split
  · next p hp =>
    obtain ⟨q, hq, rfl⟩ := Option.map_eq_some_iff.mp hp
    have hSpelled := (cutFirst_eq_some_iff.mp hq).1
    refine name_of_subset (fun c hc => ?_) h
    rw [String.toList_ofList, List.mem_reverse] at hc
    rw [← List.mem_reverse, hSpelled]
    exact List.mem_append_left _ hc
  · exact h

namespace Naming

def Keeps (R : TextRule) (n : Naming) : Prop := R.Name n.base

theorem name_qualify {n : Naming} (hn : n.Keeps R) {field : String} (h : R.Name field) :
    R.Name (n.qualify field) := by
  cases n with
  | bare => exact h
  | aliased base tables =>
    rw [qualify]
    split
    · exact h
    · exact (hn.append (name_of_plain (by decide))).append h

theorem name_suffix {n : Naming} (hn : n.Keeps R) : R.Name n.suffix := by
  cases n with
  | bare => exact name_of_plain (by decide)
  | aliased base tables => exact (name_of_plain (by decide)).append hn

theorem isPlain_letters : ∀ l ∈ letters, Text.IsPlain l := by decide

theorem name_chooseBase {taken : List String} {table base : String} {requested : Option String}
    (hTable : R.Name table) (hRequested : ∀ t ∈ requested, R.Name t)
    (h : chooseBase taken table requested = .ok base) : R.Name base := by
  simp only [chooseBase] at h
  split at h
  · rw [← Except.ok.inj h]
    cases requested with
    | none =>
      refine name_of_subset (fun c hc => ?_) hTable
      rw [preferred, Option.getD_none, String.toList_ofList] at hc
      exact List.mem_of_mem_take hc
    | some name => exact hRequested name rfl
  · split at h
    · next l hl =>
      rw [← Except.ok.inj h]
      exact name_of_plain (isPlain_letters l (List.mem_of_find?_eq_some hl))
    · cases h

theorem keeps_bare : Keeps R .bare := name_of_plain (by decide : Text.IsPlain "")

theorem keeps_assign {table : String} {requested : Option String} {joins : List Join}
    {force : Bool} {reserved : List String} {n : Naming} (hTable : R.Name table)
    (hRequested : ∀ t ∈ requested, R.Name t)
    (h : assign table requested joins force reserved = .ok n) : n.Keeps R := by
  rw [assign] at h
  split at h
  · split at h
    · cases h
    · split at h
      · cases h
      · next hBase =>
        rw [← Except.ok.inj h]
        exact name_chooseBase hTable hRequested hBase
  · rw [← Except.ok.inj h]
    exact keeps_bare

end Naming

/-! ### Clauses -/

section Clauses

variable {n : Naming}

theorem SelectField.name_expression (hn : n.Keeps R) {f : SelectField}
    (h : ∀ t ∈ f.texts, R.Name t) : R.Name (f.expression n) := by
  have hTarget : R.Name (f.target n) := by
    rw [target]
    split
    · exact name_of_plain (by decide)
    · exact Naming.name_qualify hn (h f.field (by simp [texts]))
  rw [expression]
  cases hf : f.function with
  | none => exact hTarget
  | some function =>
    have hUpper : R.Name (String.ofList (upper function.toList)) := h _ (by simp [texts, hf])
    show R.Name (if _ then _ else _)
    split
    · exact ((name_of_plain (by decide)).append hTarget).append (name_of_plain (by decide))
    · exact ((hUpper.append (name_of_plain (by decide))).append hTarget).append
        (name_of_plain (by decide))

theorem SelectField.name_written (hn : n.Keeps R) {f : SelectField}
    (h : ∀ t ∈ f.texts, R.Name t) : R.Name (f.written n) := by
  have hExpression := name_expression hn h
  rw [written]
  cases ho : f.output with
  | none => exact hExpression
  | some output =>
    exact (hExpression.append (name_of_plain (by decide))).append (h output (by simp [texts, ho]))

theorem SelectField.name_outputName {f : SelectField} (h : ∀ t ∈ f.texts, R.Name t) :
    R.Name f.outputName := by
  rw [outputName]
  cases ho : f.output with
  | none => exact name_column (h f.field (by simp [texts]))
  | some output => exact h output (by simp [texts, ho])

/-- A JSON sub-select of a select list, ready to be written. -/
def NamedScript.Meets (R : TextRule) (j : NamedScript) : Prop := R.Name j.name ∧ Script.Meets R j.body

theorem Selection.good_key {name : String} (h : R.Name name) : R.Good (key name) :=
  good_between (a := "") (b := ", ") rfl rfl (by decide) (by decide) h

theorem Selection.meets_listScript (hn : n.Keeps R) {s : Selection} {json : List NamedScript}
    (hFields : ∀ f ∈ s.fields, ∀ t ∈ f.texts, R.Name t) (hJson : ∀ j ∈ json, j.Meets R) :
    Meets R (s.listScript n json) := by
  have hItems : ∀ i ∈ s.items n json, Meets R i := by
    intro i hi
    rcases List.mem_append.mp hi with hi | hi
    · obtain ⟨f, hf, rfl⟩ := List.mem_map.mp hi
      exact ⟨(SelectField.name_written hn (hFields f hf)).good, trivial⟩
    · obtain ⟨j, hj, rfl⟩ := List.mem_map.mp hi
      exact meets_append.mpr ⟨(hJson j hj).2,
        ((name_of_plain (by decide)).append (hJson j hj).1).good, trivial⟩
  rw [listScript, List.cons_append, Meets, meets_append]
  refine ⟨?_, ?_, good_of_plain (by decide), trivial⟩
  · show R.Good (if _ then _ else _)
    split <;> exact good_of_plain (by decide)
  · split
    · exact ⟨good_of_plain (by decide), trivial⟩
    · exact meets_joined (good_of_plain (by decide)) hItems

theorem Selection.meets_objectScript (hn : n.Keeps R) {s : Selection} {json : List NamedScript}
    (hFields : ∀ f ∈ s.fields, ∀ t ∈ f.texts, R.Name t) (hJson : ∀ j ∈ json, j.Meets R) :
    Meets R (s.objectScript n json) := by
  have hMembers : ∀ i ∈ s.members n json, Meets R i := by
    intro i hi
    rcases List.mem_append.mp hi with hi | hi
    · obtain ⟨f, hf, rfl⟩ := List.mem_map.mp hi
      exact ⟨R.good_append (good_key (SelectField.name_outputName (hFields f hf)))
        (SelectField.name_expression hn (hFields f hf)).good, trivial⟩
    · obtain ⟨j, hj, rfl⟩ := List.mem_map.mp hi
      exact ⟨good_key (hJson j hj).1, (hJson j hj).2⟩
  rw [objectScript, List.cons_append, Meets, meets_append]
  exact ⟨good_of_plain (by decide), meets_joined (good_of_plain (by decide)) hMembers,
    good_of_plain (by decide), trivial⟩

theorem JsonColumn.good_written {c : JsonColumn}
    (h : ∀ s ∈ [c.property, c.type, c.path], R.Name s) : R.Good c.written := by
  have hProperty : R.Name c.property := h _ (by simp)
  have hType : R.Name c.type := h _ (by simp)
  have hPath : R.Name c.path := h _ (by simp)
  have hFront : R.Name (c.property ++ " " ++ c.type) :=
    (hProperty.append (name_of_plain (by decide))).append hType
  have hQuoted : R.Good (" PATH '" ++ c.path ++ "'") :=
    good_between (a := " PATH ") (b := "") rfl rfl (by decide) (by decide) hPath
  have hText : c.written = c.property ++ " " ++ c.type ++ (" PATH '" ++ c.path ++ "'") := by
    simp only [written, String.append_assoc]
  rw [hText]
  exact R.good_append hFront.good hQuoted

theorem JsonSource.good_written (hn : n.Keeps R) {s : JsonSource} (h : R.Name s.field) :
    R.Good (s.written n) := by
  cases s with
  | document field => exact (Naming.name_qualify hn h).good
  | keyValue field =>
    have hHead : R.Name ("JSON_KEY_VALUE(" ++ n.qualify field) :=
      (name_of_plain (by decide)).append (Naming.name_qualify hn h)
    have hTail : R.Good (", '" ++ "$" ++ "')") :=
      good_between (a := ", ") (b := ")") rfl rfl (by decide) (by decide)
        (name_of_plain (by decide))
    exact R.good_append hHead.good hTail

theorem JsonTable.meets_script (hn : n.Keeps R) {t : JsonTable} (h : ∀ s ∈ t.texts, R.Name s) :
    Meets R (t.script n) := by
  have hName : R.Name t.name := h _ (by simp [texts])
  have hPath : R.Name t.path := h _ (by simp [texts])
  rw [script]
  split
  · exact ⟨trivial, trivial⟩
  · exact ⟨trivial, trivial⟩
  · next source hSource _ =>
    have hField : R.Name source.field := h _ (by simp [texts, sourceFields, hSource])
    have hHead : R.Good (", JSON_TABLE(" ++ source.written n) :=
      R.good_append (good_of_plain (by decide)) (JsonSource.good_written hn hField)
    have hQuoted : R.Good (", '" ++ t.path ++ "' COLUMNS (") :=
      good_between (a := ", ") (b := " COLUMNS (") rfl rfl (by decide) (by decide) hPath
    have hColumns : R.Good (", ".intercalate (t.columns.map JsonColumn.written)) := by
      refine good_intercalate (good_of_plain (by decide)) fun s hs => ?_
      obtain ⟨c, hc, rfl⟩ := List.mem_map.mp hs
      exact JsonColumn.good_written fun p hp =>
        h p (List.mem_append_right _ (List.mem_flatMap.mpr ⟨c, hc, hp⟩))
    have hTail : R.Good (")) " ++ t.name) := ((name_of_plain (by decide)).append hName).good
    have hText := R.good_append (R.good_append (R.good_append hHead hQuoted) hColumns) hTail
    refine ⟨show R.Good _ from ?_, trivial⟩
    simpa only [String.append_assoc] using hText

theorem Selection.meets_fromScript (hn : n.Keeps R) {table : String} (hTable : R.Name table)
    {s : Selection} (h : ∀ t ∈ s.jsonTables, ∀ p ∈ t.texts, R.Name p) :
    Meets R (s.fromScript n table) := by
  rw [fromScript, meets_append, meets_append]
  refine ⟨⟨?_, meets_flatMap fun t ht => JsonTable.meets_script hn (h t ht)⟩, ?_⟩
  · exact ⟨good_of_plain (by decide), hTable, (Naming.name_suffix hn).good, trivial⟩
  · exact ⟨good_of_plain (by decide), trivial⟩

theorem Operator.isPlain_fragment (op : Operator) : IsPlain op.fragment := by
  cases op <;> decide

/-- Here a caller's value enters the text, as a literal. -/
theorem OnTerm.meets_script (hn : n.Keeps R) {name : String} (hName : R.Name name) {t : OnTerm}
    (h : ∀ s ∈ t.texts, R.Name s) (hValues : ∀ v ∈ t.values, R.Good v.literal) :
    Meets R (t.script n name) := by
  have hField : R.Name t.field := h _ (by simp [texts])
  have hLeft : R.Name (" AND " ++ Field.ofTable name t.field ++ t.operator.fragment) :=
    ((name_of_plain (by decide)).append ((hName.append (name_of_plain (by decide))).append
      hField)).append (name_of_plain (Operator.isPlain_fragment _))
  rw [script]
  by_cases hNull : t.operator.isNullTest = true
  · simp only [hNull, if_true]
    exact ⟨hLeft.good, trivial⟩
  by_cases hComparison : t.operator.isComparison = true
  · simp only [hNull, hComparison, if_true]
    cases hTarget : t.target with
    | field foreign =>
      have hForeign : R.Name foreign := h _ (by simp [texts, foreign?, hTarget])
      exact ⟨(hLeft.append (Naming.name_qualify hn hForeign)).good, trivial⟩
    | value v =>
      have hLiteral : R.Good v.literal := hValues v (by simp [values, hTarget, hNull])
      exact ⟨R.good_append hLeft.good hLiteral, trivial⟩
  · simp only [hNull, hComparison]
    exact ⟨trivial, trivial⟩

theorem Join.meets_scripts (hn : n.Keeps R) {joins : List Join}
    (h : ∀ j ∈ joins, ∀ t ∈ j.texts, R.Name t)
    (hValues : ∀ j ∈ joins, ∀ v ∈ j.values, R.Good v.literal) : Meets R (Join.scripts n joins) := by
  refine meets_flatMap fun j hj => ?_
  have hTable : R.Name j.table := h j hj _ (by simp [texts])
  have hName : R.Name j.name := h j hj _ (by simp [texts])
  have hField : R.Name j.field := h j hj _ (by simp [texts])
  have hForeign : R.Name j.foreign := h j hj _ (by simp [texts])
  have hKeyword : IsPlain (j.mode.keyword ++ " ") := by cases j.mode <;> decide
  rw [script, meets_append, meets_append]
  refine ⟨⟨⟨good_of_plain hKeyword, hTable, TextRule.Name.good ?_, trivial⟩, ?_⟩, ?_⟩
  · exact (((((name_of_plain (by decide)).append hName).append (name_of_plain (by decide))).append
      ((hName.append (name_of_plain (by decide))).append hField)).append
      (name_of_plain (by decide))).append (Naming.name_qualify hn hForeign)
  · refine meets_flatMap fun t ht => OnTerm.meets_script hn hName (fun s hs => ?_) fun v hv => ?_
    · exact h j hj s (List.mem_append_right _ (List.mem_flatMap.mpr ⟨t, ht, hs⟩))
    · exact hValues j hj v (List.mem_flatMap.mpr ⟨t, ht, hv⟩)
  · exact ⟨good_of_plain (by decide), trivial⟩

theorem Selection.meets_listed {heading : String} (hHeading : IsPlain heading)
    {items : List String} (h : ∀ s ∈ items, R.Name s) : Meets R (listed heading items) := by
  cases items with
  | nil => trivial
  | cons a rest =>
    have hItems : R.Good (", ".intercalate (a :: rest)) :=
      good_intercalate (good_of_plain (by decide)) fun s hs => (h s hs).good
    exact ⟨R.good_append (R.good_append (good_of_plain hHeading) hItems)
      (good_of_plain (by decide)), trivial⟩

theorem Selection.meets_tailScript (hn : n.Keeps R) {s : Selection}
    (hGroup : ∀ f ∈ s.group, R.Name f) (hOrder : ∀ o ∈ s.order, R.Name o.field) :
    Meets R (s.tailScript n) := by
  rw [tailScript, meets_append, meets_append, meets_append]
  refine ⟨⟨⟨meets_listed (by decide) fun t ht => ?_, meets_listed (by decide) fun t ht => ?_⟩, ?_⟩,
    ?_⟩
  · obtain ⟨f, hf, rfl⟩ := List.mem_map.mp ht
    exact Naming.name_qualify hn (hGroup f hf)
  · obtain ⟨o, ho, rfl⟩ := List.mem_map.mp ht
    refine (Naming.name_qualify hn (hOrder o ho)).append ?_
    split <;> exact name_of_plain (by decide)
  · split
    · exact ⟨(((((name_of_plain (by decide)).append (name_natRepr _)).append
        (name_of_plain (by decide))).append (name_natRepr _)).append
        (name_of_plain (by decide))).good, trivial⟩
    · trivial
  · split
    · exact ⟨good_of_plain (by decide), trivial⟩
    · trivial

def Correlation.Keeps (R : TextRule) (c : Correlation) : Prop := R.Name c.inner ∧ R.Name c.outer

theorem meets_whereScript (hn : n.Keeps R) {correlation : Option Correlation}
    (hCorrelation : ∀ c ∈ correlation, c.Keeps R) (row : Option UInt64) {terms : List Script}
    (h : ∀ t ∈ terms, Meets R t) : Meets R (whereScript n correlation row terms) := by
  have hTerms : ∀ t ∈ whereTerms n correlation row terms, Meets R t := by
    intro t ht
    simp only [whereTerms, List.mem_append, Option.mem_toList, Option.map_eq_some_iff] at ht
    rcases ht with (⟨c, hc, rfl⟩ | ⟨id, _, rfl⟩) | ht
    · obtain ⟨hInner, hOuter⟩ := hCorrelation c hc
      exact ⟨(((Naming.name_qualify hn hInner).append (name_of_plain (by decide))).append
        hOuter).good, trivial⟩
    · exact ⟨(((Naming.name_qualify hn (name_of_plain (by decide))).append
        (name_of_plain (by decide))).append (name_natRepr _)).good, trivial⟩
    · exact h t ht
  rw [whereScript_eq]
  split
  · trivial
  · rw [List.cons_append, Meets, meets_append]
    exact ⟨good_of_plain (by decide), meets_joined (good_of_plain (by decide)) hTerms,
      good_of_plain (by decide), trivial⟩

namespace Filter

theorem meets_guarded {verdict : Except CompileError Unit} {s : Script} (h : Meets R s) :
    Meets R (guarded verdict s) := by
  cases verdict with
  | error e => exact ⟨trivial, trivial⟩
  | ok u => exact h

theorem meets_parenthesised {alternatives : List Script} (h : ∀ s ∈ alternatives, Meets R s) :
    ∀ t ∈ parenthesised alternatives, Meets R t := by
  intro t ht
  cases alternatives with
  | nil => cases ht
  | cons a rest =>
    simp only [parenthesised, List.mem_singleton] at ht
    rw [ht, List.cons_append, Meets, meets_append]
    exact ⟨good_of_plain (by decide), meets_joined (good_of_plain (by decide)) h,
      good_of_plain (by decide), trivial⟩

theorem meets_listOperand (field : String) (op : Operator) (values : List Value) :
    Meets R (listOperand field op values) := by
  cases values with
  | nil => exact ⟨trivial, trivial⟩
  | cons v rest =>
    rw [listOperand, List.cons_append, Meets, meets_append]
    · exact ⟨good_of_plain (by decide), meets_placeholders _, good_of_plain (by decide), trivial⟩
    · exact List.cons_ne_nil _ _

theorem meets_rangeOperand (low high : Value) : Meets R (rangeOperand low high) :=
  ⟨good_of_plain (by decide), trivial, good_of_plain (by decide), trivial, trivial⟩

end Filter

end Clauses

end SqlStatement
