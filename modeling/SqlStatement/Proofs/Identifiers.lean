import SqlStatement.Statement

/-!
# What a caller supplies as text

The identifiers of a statement are the texts that a caller supplies and that are
written as they stand.  The fixed values of ON clauses are written as literals.

* `Statement.texts`: the identifiers of a statement.
* `Statement.onValues`: the values that its ON clauses compare with.
-/

namespace SqlStatement

open Text

/-! ### Identifiers -/

def OnTerm.texts (t : OnTerm) : List String := t.field :: t.foreign?.toList

def Join.texts (j : Join) : List String :=
  [j.table, j.name, j.field, j.foreign] ++ j.terms.flatMap OnTerm.texts

def Source.texts (s : Source) : List String :=
  s.table :: s.requested.toList ++ s.joins.flatMap Join.texts

/-- A function counts as it is written, in capitals. -/
def SelectField.texts (f : SelectField) : List String :=
  f.field :: (f.function.map fun s => String.ofList (upper s.toList)).toList ++ f.output.toList

def JsonTable.texts (t : JsonTable) : List String :=
  [t.name, t.path] ++ t.sourceFields ++ t.columns.flatMap fun c => [c.property, c.type, c.path]

def Selection.texts (s : Selection) : List String :=
  s.fields.flatMap SelectField.texts ++ s.jsonTables.flatMap JsonTable.texts ++ s.group
    ++ s.order.map (·.field)

mutual

def Select.texts : Select → List String
  | ⟨source, selection, filter, json⟩ =>
    source.texts ++ selection.texts ++ Filter.texts filter ++ JsonSelect.texts json

def JsonSelect.texts : List JsonSelect → List String
  | [] => []
  | ⟨name, query, inner, outer⟩ :: rest =>
    [name, inner, outer] ++ Select.texts query ++ JsonSelect.texts rest

def Filter.texts : Filter → List String
  | ⟨none, conditions, groups⟩ => Condition.texts conditions ++ Filter.groupTexts groups
  | ⟨some wrapped, conditions, groups⟩ =>
    Filter.texts wrapped ++ (Condition.texts conditions ++ Filter.groupTexts groups)

def Filter.groupTexts : List Filter → List String
  | [] => []
  | f :: rest => Filter.texts f ++ Filter.groupTexts rest

def Condition.texts : List Condition → List String
  | [] => []
  | ⟨field, test⟩ :: rest => field :: Test.texts test ++ Condition.texts rest

def Test.texts : Test → List String
  | .inSubquery query => Select.texts query
  | .compare _ _ | .null | .notNull | .between _ _ | .notBetween _ _ | .inList _ | .notIn _ => []

end

/-- Every identifier that a caller supplies for a statement. -/
def Statement.texts : Statement → List String
  | .select s => s.texts
  | .insert i => i.table :: i.fields.fields
  | .bulkInsert b => b.table :: b.columns
  | .update u =>
    u.source.texts ++ u.fields.fields ++ (u.removal.map fun r => [r.field, r.path]).toList.flatten
      ++ u.filter.texts
  | .delete d => d.source.texts ++ d.filter.texts
  | .union u => u.outer.texts ++ u.members.flatMap Select.texts

/-! ### Fixed values -/

/-- A null test does not write its target. -/
def OnTerm.values (t : OnTerm) : List Value :=
  match t.target with
  | .field _ => []
  | .value v => if t.operator.isNullTest then [] else [v]

def Join.values (j : Join) : List Value := j.terms.flatMap OnTerm.values

def Source.values (s : Source) : List Value := s.joins.flatMap Join.values

mutual

def Select.onValues : Select → List Value
  | ⟨source, _, filter, json⟩ =>
    source.values ++ Filter.onValues filter ++ JsonSelect.onValues json

def JsonSelect.onValues : List JsonSelect → List Value
  | [] => []
  | ⟨_, query, _, _⟩ :: rest => Select.onValues query ++ JsonSelect.onValues rest

def Filter.onValues : Filter → List Value
  | ⟨none, conditions, groups⟩ => Condition.onValues conditions ++ Filter.groupOnValues groups
  | ⟨some wrapped, conditions, groups⟩ =>
    Filter.onValues wrapped ++ (Condition.onValues conditions ++ Filter.groupOnValues groups)

def Filter.groupOnValues : List Filter → List Value
  | [] => []
  | f :: rest => Filter.onValues f ++ Filter.groupOnValues rest

def Condition.onValues : List Condition → List Value
  | [] => []
  | ⟨_, test⟩ :: rest => Test.onValues test ++ Condition.onValues rest

def Test.onValues : Test → List Value
  | .inSubquery query => Select.onValues query
  | .compare _ _ | .null | .notNull | .between _ _ | .notBetween _ _ | .inList _ | .notIn _ => []

end

/-- The fixed values in the ON clauses of a statement and of all selects in it. -/
def Statement.onValues : Statement → List Value
  | .select s => s.onValues
  | .update u => u.source.values ++ u.filter.onValues
  | .delete d => d.source.values ++ d.filter.onValues
  | .union u => u.outer.onValues ++ u.members.flatMap Select.onValues
  | .insert _ | .bulkInsert _ => []

end SqlStatement
