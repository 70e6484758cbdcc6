import SqlStatement.Proofs.Clauses

/-!
# Mapping the values

A function on values is carried out on all values that a script, a select or a
filter binds.  The fixed values of ON clauses are left alone.

* `Script.compile_of_mapValues`: on scripts, only the values that are bound change.
* `Select.script_mapValues`: mapping the values before and after writing the
  script of a select is the same, by induction over selects and filters.
-/

namespace SqlStatement

variable (g : Value → Value)

def Compiled.mapParams (c : Compiled) : Compiled := ⟨c.sql, c.params.map g⟩

/-! ### Scripts -/

namespace Script

mutual

@[simp] def mapPiece : Piece → Piece
  | .placeholder v => .placeholder (g v)
  | .nested body => .nested (mapValues body)
  | .text s => .text s
  | .table name => .table name
  | .aliases n => .aliases n
  | .fail e => .fail e

/-- The script with `g` carried out on the values of its placeholders. -/
@[simp] def mapValues : List Piece → List Piece
  | [] => []
  | p :: rest => mapPiece p :: mapValues rest

end

theorem mapValues_eq_map (s : Script) : mapValues g s = s.map (mapPiece g) := by
  induction s with
  | nil => rfl
  | cons p rest ih => rw [mapValues, ih, List.map_cons]

@[simp] theorem mapValues_append (a b : Script) :
    mapValues g (a ++ b) = mapValues g a ++ mapValues g b := by
  simp only [mapValues_eq_map, List.map_append]

theorem mapValues_joined (separator : String) : ∀ scripts : List Script,
    mapValues g (joined separator scripts) = joined separator (scripts.map (mapValues g))
  | [] => rfl
  | [a] => by simp
  | a :: b :: rest => by
    rw [joined_cons_cons, mapValues_append, mapValues, mapValues_joined separator (b :: rest)]
    exact (joined_cons_cons separator (mapValues g a) (mapValues g b) _).symm

theorem mapValues_flatMap {α : Type} (f : α → Script) (l : List α) :
    mapValues g (l.flatMap f) = l.flatMap fun x => mapValues g (f x) := by
  induction l with
  | nil => rfl
  | cons x rest ih => rw [List.flatMap_cons, mapValues_append, ih, List.flatMap_cons]

theorem mapValues_placeholders (values : List Value) :
    mapValues g (placeholders values) = placeholders (values.map g) := by
  simp [placeholders, mapValues_joined, Function.comp_def]

mutual

theorem pieceFailure?_mapPiece : ∀ p : Piece, pieceFailure? (mapPiece g p) = pieceFailure? p
  | .nested body => failure?_mapValues body
  | .text _ | .table _ | .placeholder _ | .aliases _ | .fail _ => rfl

theorem failure?_mapValues : ∀ s : Script, failure? (mapValues g s) = failure? s
  | [] => rfl
  | p :: rest => by
    rw [mapValues, failure?, failure?, pieceFailure?_mapPiece p, failure?_mapValues rest]

end

mutual

theorem pieceWritten_mapPiece (schema : String) : ∀ p : Piece,
    pieceWritten schema (mapPiece g p) = pieceWritten schema p
  | .nested body => by rw [mapPiece, pieceWritten, pieceWritten, written_mapValues schema body]
  | .text _ | .table _ | .placeholder _ | .aliases _ | .fail _ => rfl

theorem written_mapValues (schema : String) : ∀ s : Script,
    written schema (mapValues g s) = written schema s
  | [] => rfl
  | p :: rest => by
    rw [mapValues, written, written, pieceWritten_mapPiece schema p, written_mapValues schema rest]

end

mutual

theorem pieceBound_mapPiece : ∀ p : Piece, pieceBound (mapPiece g p) = (pieceBound p).map g
  | .nested body => bound_mapValues body
  | .text _ | .table _ | .placeholder _ | .aliases _ | .fail _ => rfl

theorem bound_mapValues : ∀ s : Script, bound (mapValues g s) = (bound s).map g
  | [] => rfl
  | p :: rest => by
    rw [mapValues, bound, bound, pieceBound_mapPiece p, bound_mapValues rest, List.map_append]

end

theorem compile_of_mapValues (schema : String) (s : Script) :
    compile schema (mapValues g s) = (compile schema s).map (Compiled.mapParams g) := by
  rw [compile_eq, compile_eq, failure?_mapValues]
  cases failure? s with
  | some e => rfl
  | none =>
    show Except.ok (compiled schema (mapValues g s)) = .ok (Compiled.mapParams g (compiled schema s))
    rw [compiled, written_mapValues, bound_mapValues]
    rfl

end Script

open Script

/-! ### Selects and filters -/

mutual

/-- The select with `g` carried out on its values, at any depth. -/
def Select.mapValues : Select → Select
  | ⟨source, selection, filter, json⟩ =>
    ⟨source, selection, Filter.mapValues filter, JsonSelect.mapValues json⟩

def JsonSelect.mapValues : List JsonSelect → List JsonSelect
  | [] => []
  | ⟨name, query, inner, outer⟩ :: rest =>
    ⟨name, Select.mapValues query, inner, outer⟩ :: JsonSelect.mapValues rest

def Filter.mapValues : Filter → Filter
  | ⟨none, conditions, groups⟩ => ⟨none, Condition.mapValues conditions, Filter.mapGroups groups⟩
  | ⟨some wrapped, conditions, groups⟩ =>
    ⟨some (Filter.mapValues wrapped), Condition.mapValues conditions, Filter.mapGroups groups⟩

def Filter.mapGroups : List Filter → List Filter
  | [] => []
  | f :: rest => Filter.mapValues f :: Filter.mapGroups rest

def Condition.mapValues : List Condition → List Condition
  | [] => []
  | ⟨field, test⟩ :: rest => ⟨field, Test.mapValues test⟩ :: Condition.mapValues rest

def Test.mapValues : Test → Test
  | .compare c v => .compare c (g v)
  | .null => .null
  | .notNull => .notNull
  | .between low high => .between (g low) (g high)
  | .notBetween low high => .notBetween (g low) (g high)
  | .inList values => .inList (values.map g)
  | .notIn values => .notIn (values.map g)
  | .inSubquery query => .inSubquery (Select.mapValues query)

end

/-! ### What a plan looks at -/

theorem Condition.map_field_mapValues (conditions : List Condition) :
    (Condition.mapValues g conditions).map (·.field) = conditions.map (·.field) := by
  induction conditions with
  | nil => rfl
  | cons c rest ih =>
    obtain ⟨field, test⟩ := c
    rw [Condition.mapValues, List.map_cons, List.map_cons, ih]

mutual

theorem Filter.fields_mapValues : ∀ f : Filter, (f.mapValues g).fields = f.fields
  | ⟨none, conditions, groups⟩ => by
    rw [Filter.mapValues, Filter.fields, Filter.fields, Condition.map_field_mapValues,
      Filter.groupFields_mapGroups groups]
  | ⟨some wrapped, conditions, groups⟩ => by
    rw [Filter.mapValues, Filter.fields, Filter.fields, Condition.map_field_mapValues,
      Filter.fields_mapValues wrapped, Filter.groupFields_mapGroups groups]

theorem Filter.groupFields_mapGroups : ∀ groups : List Filter,
    Filter.groupFields (Filter.mapGroups g groups) = Filter.groupFields groups
  | [] => rfl
  | f :: rest => by
    rw [Filter.mapGroups, Filter.groupFields, Filter.groupFields, Filter.fields_mapValues f,
      Filter.groupFields_mapGroups rest]

end

theorem JsonSelect.map_outer_mapValues (json : List JsonSelect) :
    (JsonSelect.mapValues g json).map (·.outer) = json.map (·.outer) := by
  induction json with
  | nil => rfl
  | cons j rest ih =>
    obtain ⟨name, query, inner, outer⟩ := j
    rw [JsonSelect.mapValues, List.map_cons, List.map_cons, ih]

theorem JsonSelect.length_mapValues (json : List JsonSelect) :
    (JsonSelect.mapValues g json).length = json.length := by
  have h := congrArg List.length (JsonSelect.map_outer_mapValues g json)
  simpa using h

theorem Select.width_mapValues (s : Select) : (s.mapValues g).width = s.width := by
  obtain ⟨source, selection, filter, json⟩ := s
  rw [Select.mapValues, width, width, JsonSelect.length_mapValues]

theorem Select.plan_mapValues (s : Select) (correlation : Option Correlation) :
    (s.mapValues g).plan correlation = s.plan correlation := by
  obtain ⟨source, selection, filter, json⟩ := s
  have hEmpty : (JsonSelect.mapValues g json).isEmpty = json.isEmpty := by
    rw [Bool.eq_iff_iff, List.isEmpty_iff_length_eq_zero, List.isEmpty_iff_length_eq_zero,
      JsonSelect.length_mapValues]
  simp only [Select.mapValues, plan, mentioned, hEmpty, JsonSelect.map_outer_mapValues,
    Filter.fields_mapValues]

theorem Test.operator_mapValues (test : Test) : (test.mapValues g).operator = test.operator := by
  cases test <;> rfl

/-! ### Clauses -/

/-- A JSON sub-select as it is written, with `g` carried out on its values. -/
def NamedScript.mapValues (j : NamedScript) : NamedScript := ⟨j.name, Script.mapValues g j.body⟩

section Clauses

variable (n : Naming)

theorem Selection.mapValues_listScript (s : Selection) (json : List NamedScript) :
    Script.mapValues g (s.listScript n json) = s.listScript n (json.map (NamedScript.mapValues g)) := by
  have hItems : (s.items n json).map (Script.mapValues g)
      = s.items n (json.map (NamedScript.mapValues g)) := by
    simp [items, NamedScript.mapValues, Function.comp_def]
  rw [listScript, listScript, ← hItems]
  by_cases h : s.items n json = []
  · simp [h]
  · simp [h, mapValues_joined]

theorem Selection.mapValues_objectScript (s : Selection) (json : List NamedScript) :
    Script.mapValues g (s.objectScript n json)
      = s.objectScript n (json.map (NamedScript.mapValues g)) := by
  simp [objectScript, members, mapValues_joined, NamedScript.mapValues, Function.comp_def]

theorem JsonTable.mapValues_script (t : JsonTable) :
    Script.mapValues g (t.script n) = t.script n := by
  rw [script]
  cases t.source <;> cases t.columns <;> rfl

theorem Selection.mapValues_fromScript (table : String) (s : Selection) :
    Script.mapValues g (s.fromScript n table) = s.fromScript n table := by
  simp [fromScript, mapValues_flatMap, JsonTable.mapValues_script]

/-- The values of an ON clause are part of the text. -/
theorem OnTerm.mapValues_script (name : String) (t : OnTerm) :
    Script.mapValues g (t.script n name) = t.script n name := by
  rw [script]
  cases t.operator.isNullTest <;> cases t.operator.isComparison <;> cases t.target <;> rfl

theorem Join.mapValues_script (j : Join) : Script.mapValues g (j.script n) = j.script n := by
  simp [script, mapValues_flatMap, OnTerm.mapValues_script]

theorem Join.mapValues_scripts (joins : List Join) :
    Script.mapValues g (Join.scripts n joins) = Join.scripts n joins := by
  simp only [scripts, mapValues_flatMap, mapValues_script]

theorem mapValues_whereScript (correlation : Option Correlation) (row : Option UInt64)
    (terms : List Script) :
    Script.mapValues g (whereScript n correlation row terms)
      = whereScript n correlation row (terms.map (Script.mapValues g)) := by
  have hTerms : (whereTerms n correlation row terms).map (Script.mapValues g)
      = whereTerms n correlation row (terms.map (Script.mapValues g)) := by
    cases correlation <;> cases row <;> simp [whereTerms, Correlation.term, Source.rowTerm]
  rw [whereScript_eq, whereScript_eq, ← hTerms]
  by_cases h : whereTerms n correlation row terms = []
  · simp [h]
  · simp [h, mapValues_joined]

theorem Selection.mapValues_tailScript (s : Selection) :
    Script.mapValues g (s.tailScript n) = s.tailScript n := by
  have hListed : ∀ (heading : String) (items : List String),
      Script.mapValues g (listed heading items) = listed heading items := by
    intro heading items
    cases items <;> rfl
  simp only [tailScript, mapValues_append, hListed]
  split <;> split <;> rfl

theorem Filter.mapValues_guarded (verdict : Except CompileError Unit) (s : Script) :
    Script.mapValues g (guarded verdict s) = guarded verdict (Script.mapValues g s) := by
  cases verdict <;> rfl

theorem Filter.mapValues_parenthesised (alternatives : List Script) :
    (parenthesised alternatives).map (Script.mapValues g)
      = parenthesised (alternatives.map (Script.mapValues g)) := by
  cases alternatives with
  | nil => rfl
  | cons a rest => simp [parenthesised, mapValues_joined]

theorem Filter.mapValues_listOperand (field : String) (op : Operator) (values : List Value) :
    Script.mapValues g (listOperand field op values) = listOperand field op (values.map g) := by
  cases values with
  | nil => rfl
  | cons v rest => simp [listOperand, mapValues_placeholders]

end Clauses

/-! ### Selects as scripts -/

mutual

theorem Select.script_mapValues : ∀ (s : Select) (correlation : Option Correlation),
    (s.mapValues g).script correlation = Script.mapValues g (s.script correlation)
  | ⟨source, selection, filter, json⟩, correlation => by
    have hPlan := Select.plan_mapValues g ⟨source, selection, filter, json⟩ correlation
    rw [Select.mapValues] at hPlan ⊢
    rw [Select.script, Select.script, hPlan]
    cases Select.plan ⟨source, selection, filter, json⟩ correlation with
    | error e => rfl
    | ok p =>
      have hJson := JsonSelect.scripts_mapValues p.naming json
      have hTerms := Filter.terms_mapValues p.naming filter
      cases correlation <;>
        simp [hJson, hTerms, Selection.mapValues_listScript, Selection.mapValues_objectScript,
          Selection.mapValues_fromScript, Join.mapValues_scripts, mapValues_whereScript,
          Selection.mapValues_tailScript]

theorem JsonSelect.scripts_mapValues : ∀ (n : Naming) (json : List JsonSelect),
    JsonSelect.scripts n (JsonSelect.mapValues g json)
      = (JsonSelect.scripts n json).map (NamedScript.mapValues g)
  | _, [] => rfl
  | n, ⟨name, query, inner, outer⟩ :: rest => by
    rw [JsonSelect.mapValues, JsonSelect.scripts, JsonSelect.scripts, List.map_cons,
      JsonSelect.scripts_mapValues n rest, JsonSelect.script, JsonSelect.script,
      Select.width_mapValues, Select.script_mapValues query]
    by_cases hWidth : query.width < 2
    · simp [hWidth, NamedScript.mapValues]
    · simp [hWidth, NamedScript.mapValues]

theorem Filter.terms_mapValues : ∀ (n : Naming) (f : Filter),
    Filter.terms n (f.mapValues g) = (Filter.terms n f).map (Script.mapValues g)
  | n, ⟨none, conditions, groups⟩ => by
    rw [Filter.mapValues, Filter.terms, Filter.terms, List.map_append,
      Filter.conditionTerms_mapValues n [] conditions, Filter.groupTerms_mapGroups n groups]
  | n, ⟨some wrapped, conditions, groups⟩ => by
    rw [Filter.mapValues, Filter.terms, Filter.terms, List.map_append, List.map_append,
      Filter.terms_mapValues n wrapped, Filter.conditionTerms_mapValues n [] conditions,
      Filter.groupTerms_mapGroups n groups]

theorem Filter.conditionTerms_mapValues : ∀ (n : Naming) (seen : List (String × Operator))
    (conditions : List Condition),
    Filter.conditionTerms n seen (Condition.mapValues g conditions)
      = (Filter.conditionTerms n seen conditions).map (Script.mapValues g)
  | _, _, [] => rfl
  | n, seen, ⟨field, test⟩ :: rest => by
    rw [Condition.mapValues, Filter.conditionTerms, Filter.conditionTerms, List.map_cons,
      Test.operator_mapValues, Test.script_mapValues n field test,
      Filter.conditionTerms_mapValues n _ rest, Filter.mapValues_guarded]

theorem Filter.groupTerms_mapGroups : ∀ (n : Naming) (groups : List Filter),
    Filter.groupTerms n (Filter.mapGroups g groups)
      = (Filter.groupTerms n groups).map (Script.mapValues g)
  | _, [] => rfl
  | n, group :: rest => by
    rw [Filter.mapGroups, Filter.groupTerms, Filter.groupTerms, List.map_append,
      Filter.mapValues_parenthesised, Filter.alternatives_mapValues n group,
      Filter.groupTerms_mapGroups n rest]

theorem Filter.alternatives_mapValues : ∀ (n : Naming) (f : Filter),
    Filter.alternatives n (f.mapValues g) = (Filter.alternatives n f).map (Script.mapValues g)
  | n, ⟨none, conditions, groups⟩ => by
    rw [Filter.mapValues, Filter.alternatives, Filter.alternatives, List.map_append,
      Filter.conditionScripts_mapValues n conditions, Filter.groupTerms_mapGroups n groups]
  | n, ⟨some wrapped, conditions, groups⟩ => by
    rw [Filter.mapValues, Filter.alternatives, Filter.alternatives, List.map_append,
      List.map_append, Filter.alternatives_mapValues n wrapped,
      Filter.conditionScripts_mapValues n conditions, Filter.groupTerms_mapGroups n groups]

theorem Filter.conditionScripts_mapValues : ∀ (n : Naming) (conditions : List Condition),
    Filter.conditionScripts n (Condition.mapValues g conditions)
      = (Filter.conditionScripts n conditions).map (Script.mapValues g)
  | _, [] => rfl
  | n, ⟨field, test⟩ :: rest => by
    rw [Condition.mapValues, Filter.conditionScripts, Filter.conditionScripts, List.map_cons,
      Test.script_mapValues n field test, Filter.conditionScripts_mapValues n rest]

theorem Test.script_mapValues : ∀ (n : Naming) (field : String) (test : Test),
    Test.script n field (test.mapValues g) = Script.mapValues g (Test.script n field test)
  | _, _, .compare _ _ | _, _, .null | _, _, .notNull => rfl
  | _, _, .between _ _ | _, _, .notBetween _ _ => rfl
  | _, _, .inList _ | _, _, .notIn _ => by
    simp [Test.mapValues, Test.script, Filter.mapValues_listOperand]
  | _, _, .inSubquery query => by
    simp [Test.mapValues, Test.script, Select.script_mapValues query]

end

end SqlStatement
