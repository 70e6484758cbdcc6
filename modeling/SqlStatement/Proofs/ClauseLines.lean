import Mathlib.Data.List.Basic
import SqlStatement.Proofs.Clauses

/-!
# Clauses as lines of text

The lines that the clauses of a statement write.  A clause with nothing to say
is the empty text.

* `Selection.listLine`, `Selection.fromLine`, `Join.text`, `whereLine` and those
  of the tail: the lines.
* `Selection.written_listScript` and the lemmas beside the other lines: they are
  what the scripts of the clauses write.
-/

namespace SqlStatement

open Script

/-- Items with commas between them. -/
def commas (items : List String) : String := ", ".intercalate items

namespace Selection

/-- A list of items behind its heading, or nothing. -/
def listedLine (heading : String) (items : List String) : String :=
  if items.isEmpty then "" else heading ++ commas items ++ "\n"

/-- The select list without JSON sub-selects. -/
def listLine (n : Naming) (s : Selection) : String :=
  (if s.distinct then "SELECT DISTINCT " else "SELECT ")
    ++ (if s.fields.isEmpty then "*" else commas (s.fields.map (·.written n))) ++ "\n"

def groupLine (n : Naming) (s : Selection) : String := listedLine "GROUP BY " (s.group.map n.qualify)

def orderLine (n : Naming) (s : Selection) : String :=
  listedLine "ORDER BY " (s.order.map (OrderField.written n))

def limitLine (s : Selection) : String :=
  if 0 < s.limit then "LIMIT " ++ s.offset.toNat.repr ++ "," ++ s.limit.toNat.repr ++ "\n" else ""

def lockLine (s : Selection) : String := if s.locked then "FOR UPDATE\n" else ""

end Selection

def JsonTable.sourceText (n : Naming) (t : JsonTable) : String :=
  match t.source with
  | none => ""
  | some source => source.written n

/-- The path and the columns, between the source of a JSON table and its alias. -/
def JsonTable.columnText (t : JsonTable) : String :=
  ", '" ++ t.path ++ "' COLUMNS (" ++ commas (t.columns.map JsonColumn.written) ++ ")) "

/-- What a JSON table adds to the FROM line. -/
def JsonTable.text (n : Naming) (t : JsonTable) : String :=
  ", JSON_TABLE(" ++ t.sourceText n ++ t.columnText ++ t.name

def Selection.fromLine (schema : String) (n : Naming) (table : String) (s : Selection) : String :=
  "FROM " ++ schema ++ "." ++ table ++ n.suffix
    ++ String.join (s.jsonTables.map (JsonTable.text n)) ++ "\n"

/-- What an ON term adds to the line of its join. -/
def OnTerm.text (n : Naming) (name : String) (t : OnTerm) : String :=
  " AND " ++ Field.ofTable name t.field ++ t.operator.fragment
    ++ if t.operator.isNullTest then "" else
      match t.target with
      | .field foreign => n.qualify foreign
      | .value v => v.literal

/-- The ON clause of a join. -/
def Join.onText (n : Naming) (j : Join) : String :=
  " ON " ++ Field.ofTable j.name j.field ++ "=" ++ n.qualify j.foreign
    ++ String.join (j.terms.map (OnTerm.text n j.name))

def Join.text (schema : String) (n : Naming) (j : Join) : String :=
  j.mode.keyword ++ " " ++ schema ++ "." ++ j.table ++ " " ++ j.name ++ j.onText n ++ "\n"

/-- The terms of a WHERE, as they are written under a schema. -/
def whereLine (schema : String) (terms : List Script) : String :=
  if terms.isEmpty then ""
  else "WHERE " ++ " AND ".intercalate (terms.map fun t => String.ofList (written schema t)) ++ "\n"

/-- A text without the line breaks at its end. -/
def Text.chomp (s : String) : String := String.ofList (dropEndWhile (· == '\n') s.toList)

/-! ### What the scripts write -/

section Written

variable {schema : String} {n : Naming}

/-- Scripts one after the other write what each of them writes. -/
theorem written_flatMap_eq {α : Type} {f : α → Script} {text : α → String} {l : List α}
    (h : ∀ x ∈ l, written schema (f x) = (text x).toList) :
    written schema (l.flatMap f) = (String.join (l.map text)).toList := by
  rw [written_flatMap, List.flatMap_congr h, String.toList_join, List.flatMap_map]

theorem Selection.written_listScript (s : Selection) :
    written schema (s.listScript n []) = (s.listLine n).toList := by
  rw [listScript, listLine]
  by_cases hFields : s.fields = []
  · simp [items, hFields]
  · simp [items, hFields, written_joined, commas, Function.comp_def]

theorem JsonTable.written_script {t : JsonTable} (h : failure? (t.script n) = none) :
    written schema (t.script n) = (t.text n).toList := by
  obtain ⟨name, source, path, columns⟩ := t
  cases source with
  | none => simp [script] at h
  | some source =>
    cases columns with
    | nil => simp [script] at h
    | cons c rest => simp [script, text, sourceText, columnText, commas]

theorem Selection.written_fromScript {table : String} {s : Selection}
    (h : failure? (s.fromScript n table) = none) :
    written schema (s.fromScript n table) = (s.fromLine schema n table).toList := by
  rw [failure?_fromScript, List.findSome?_eq_none_iff] at h
  rw [fromScript, fromLine, written_append, written_append,
    written_flatMap_eq fun t ht => t.written_script (h t ht)]
  simp

theorem OnTerm.written_script {name : String} {t : OnTerm}
    (h : failure? (t.script n name) = none) :
    written schema (t.script n name) = (t.text n name).toList := by
  obtain ⟨field, operator, target⟩ := t
  rw [script] at h ⊢
  rw [text]
  by_cases hNull : operator.isNullTest = true
  · simp [hNull]
  · by_cases hComparison : operator.isComparison = true
    · cases target <;> simp [hNull, hComparison]
    · simp [hNull, hComparison] at h

theorem Join.written_script {j : Join} (h : failure? (j.script n) = none) :
    written schema (j.script n) = (j.text schema n).toList := by
  rw [script, failure?_append, failure?_append, failure?_flatMap, Option.or_eq_none_iff,
    Option.or_eq_none_iff, List.findSome?_eq_none_iff] at h
  rw [script, text, onText, written_append, written_append,
    written_flatMap_eq fun t ht => t.written_script (h.1.2 t ht)]
  simp

theorem Join.written_scripts_eq {joins : List Join} (h : failure? (scripts n joins) = none) :
    written schema (scripts n joins) = (String.join (joins.map (text schema n))).toList := by
  rw [scripts, failure?_flatMap, List.findSome?_eq_none_iff] at h
  exact written_flatMap_eq fun j hj => j.written_script (h j hj)

theorem written_whereScript (correlation : Option Correlation) (row : Option UInt64)
    (terms : List Script) : written schema (whereScript n correlation row terms)
      = (whereLine schema (whereTerms n correlation row terms)).toList := by
  rw [whereScript_eq, whereLine]
  cases whereTerms n correlation row terms with
  | nil => rfl
  | cons t rest => simp [written_joined, Function.comp_def]

theorem Selection.written_listed (heading : String) (items : List String) :
    written schema (listed heading items) = (listedLine heading items).toList := by
  cases items with
  | nil => rfl
  | cons a rest => simp [listed, listedLine, commas]

theorem Selection.written_tailScript (s : Selection) :
    written schema (s.tailScript n)
      = (s.groupLine n ++ s.orderLine n ++ s.limitLine ++ s.lockLine).toList := by
  rw [tailScript, groupLine, orderLine, limitLine, lockLine]
  by_cases hLimit : 0 < s.limit <;> cases s.locked <;> simp [hLimit, written_listed]

end Written

end SqlStatement
