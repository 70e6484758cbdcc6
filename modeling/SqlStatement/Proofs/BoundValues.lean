import SqlStatement.Proofs.Clauses
import SqlStatement.Statement

/-!
# The values a statement binds

`Statement.boundValues` lists the values of a statement in the order in which
they are bound: those of the JSON sub-selects of the select list, of the union
members, of the fields that are written (in the order of their names, row by
row, and once more what a duplicate key replaces), and of the filter.  In a
filter the wrapped clause comes first, then its own conditions, then its groups;
a subquery's values stand where its condition does.

* `Statement.bound_script`: a statement that compiles binds exactly these.
* `BulkInsert.bound_script_ofRows`: rows bind what they were given, row by row.
-/

namespace SqlStatement

open Script

mutual

def Select.boundValues : Select → List Value
  | ⟨_, _, filter, json⟩ => JsonSelect.boundValues json ++ Filter.boundValues filter

def JsonSelect.boundValues : List JsonSelect → List Value
  | [] => []
  | ⟨_, query, _, _⟩ :: rest => Select.boundValues query ++ JsonSelect.boundValues rest

def Filter.boundValues : Filter → List Value
  | ⟨none, conditions, groups⟩ => Condition.boundValues conditions ++ Filter.groupValues groups
  | ⟨some wrapped, conditions, groups⟩ =>
    Filter.boundValues wrapped ++ (Condition.boundValues conditions ++ Filter.groupValues groups)

def Filter.groupValues : List Filter → List Value
  | [] => []
  | f :: rest => Filter.boundValues f ++ Filter.groupValues rest

def Condition.boundValues : List Condition → List Value
  | [] => []
  | ⟨_, test⟩ :: rest => Test.boundValues test ++ Condition.boundValues rest

def Test.boundValues : Test → List Value
  | .compare _ v => [v]
  | .null | .notNull => []
  | .between low high | .notBetween low high => [low, high]
  | .inList values | .notIn values => values
  | .inSubquery query => Select.boundValues query

end

namespace Assignments

/-- The values in the order of their fields. -/
def boundValues (l : Assignments) : List Value := l.byField.map (·.value)

/-- The values of the fields that a duplicate key replaces, in the order of their fields. -/
def upsertValues (l : Assignments) : Option Upsert → List Value
  | none => []
  | some u => (l.byField.filter fun a => u.includes a.field).map (·.value)

end Assignments

def Statement.boundValues : Statement → List Value
  | .select s => s.boundValues
  | .insert i => i.fields.boundValues ++ i.fields.upsertValues i.upsert
  | .bulkInsert b => b.rows.flatten
  | .update u => u.fields.boundValues ++ u.filter.boundValues
  | .delete d => d.filter.boundValues
  | .union u =>
    JsonSelect.boundValues u.outer.json ++ u.members.flatMap Select.boundValues
      ++ u.outer.filter.boundValues

/-! ### Selects -/

/-- What a guarded condition binds if it does not fail. -/
theorem Filter.bound_guarded {verdict : Except CompileError Unit} {s : Script}
    (h : failure? (guarded verdict s) = none) :
    failure? s = none ∧ bound (guarded verdict s) = bound s := by
  cases verdict with
  | error e => simp [guarded] at h
  | ok u => exact ⟨h, rfl⟩

mutual

theorem Select.bound_script_of_failure? : ∀ (s : Select) (correlation : Option Correlation),
    failure? (s.script correlation) = none → bound (s.script correlation) = s.boundValues
  | ⟨source, selection, filter, json⟩, correlation, h => by
    rw [Select.failure?_script] at h
    rw [Select.bound_script, Select.boundValues]
    cases hp : Select.plan ⟨source, selection, filter, json⟩ correlation with
    | error e => rw [hp] at h; simp at h
    | ok p =>
      simp only [hp, Option.or_eq_none_iff] at h
      obtain ⟨hJson, -, -, hTerms⟩ := h
      show _ ++ _ = _
      rw [JsonSelect.bound_scripts p.naming json hJson, Filter.bound_terms p.naming filter hTerms]

theorem JsonSelect.bound_scripts : ∀ (n : Naming) (json : List JsonSelect),
    (JsonSelect.scripts n json).findSome? (failure? ·.body) = none →
    (JsonSelect.scripts n json).flatMap (bound ·.body) = JsonSelect.boundValues json
  | _, [], _ => rfl
  | n, ⟨name, query, inner, outer⟩ :: rest, h => by
    rw [JsonSelect.scripts, findSome?_cons_or, Option.or_eq_none_iff] at h
    rw [JsonSelect.scripts, List.flatMap_cons, JsonSelect.boundValues,
      JsonSelect.bound_scripts n rest h.2]
    have hBody := h.1
    rw [JsonSelect.script] at hBody ⊢
    by_cases hWidth : query.width < 2
    · simp [hWidth] at hBody
    · simp only [hWidth, if_false] at hBody ⊢
      simp only [failure?, pieceFailure?, Option.none_or, Option.or_none] at hBody
      simp [Select.bound_script_of_failure? query _ hBody]

theorem Filter.bound_terms : ∀ (n : Naming) (f : Filter),
    (Filter.terms n f).findSome? failure? = none →
    (Filter.terms n f).flatMap bound = f.boundValues
  | n, ⟨none, conditions, groups⟩, h => by
    rw [Filter.terms, List.findSome?_append, Option.or_eq_none_iff] at h
    rw [Filter.terms, List.flatMap_append, Filter.boundValues,
      Filter.bound_conditionTerms n [] conditions h.1, Filter.bound_groupTerms n groups h.2]
  | n, ⟨some wrapped, conditions, groups⟩, h => by
    rw [Filter.terms, List.findSome?_append, List.findSome?_append, Option.or_eq_none_iff,
      Option.or_eq_none_iff] at h
    rw [Filter.terms, List.flatMap_append, List.flatMap_append, Filter.boundValues,
      Filter.bound_terms n wrapped h.1.1, Filter.bound_conditionTerms n [] conditions h.1.2,
      Filter.bound_groupTerms n groups h.2, List.append_assoc]

theorem Filter.bound_conditionTerms : ∀ (n : Naming) (seen : List (String × Operator))
    (conditions : List Condition),
    (Filter.conditionTerms n seen conditions).findSome? failure? = none →
    (Filter.conditionTerms n seen conditions).flatMap bound = Condition.boundValues conditions
  | _, _, [], _ => rfl
  | n, seen, ⟨field, test⟩ :: rest, h => by
    rw [Filter.conditionTerms, findSome?_cons_or, Option.or_eq_none_iff] at h
    obtain ⟨hTest, hBound⟩ := Filter.bound_guarded h.1
    rw [Filter.conditionTerms, List.flatMap_cons, Condition.boundValues, hBound,
      Test.bound_script n field test hTest, Filter.bound_conditionTerms n _ rest h.2]

theorem Filter.bound_groupTerms : ∀ (n : Naming) (groups : List Filter),
    (Filter.groupTerms n groups).findSome? failure? = none →
    (Filter.groupTerms n groups).flatMap bound = Filter.groupValues groups
  | _, [], _ => rfl
  | n, group :: rest, h => by
    rw [Filter.groupTerms, List.findSome?_append, Filter.failure?_parenthesised,
      Option.or_eq_none_iff] at h
    rw [Filter.groupTerms, List.flatMap_append, Filter.bound_parenthesised, Filter.groupValues,
      Filter.bound_alternatives n group h.1, Filter.bound_groupTerms n rest h.2]

theorem Filter.bound_alternatives : ∀ (n : Naming) (f : Filter),
    (Filter.alternatives n f).findSome? failure? = none →
    (Filter.alternatives n f).flatMap bound = f.boundValues
  | n, ⟨none, conditions, groups⟩, h => by
    rw [Filter.alternatives, List.findSome?_append, Option.or_eq_none_iff] at h
    rw [Filter.alternatives, List.flatMap_append, Filter.boundValues,
      Filter.bound_conditionScripts n conditions h.1, Filter.bound_groupTerms n groups h.2]
  | n, ⟨some wrapped, conditions, groups⟩, h => by
    rw [Filter.alternatives, List.findSome?_append, List.findSome?_append, Option.or_eq_none_iff,
      Option.or_eq_none_iff] at h
    rw [Filter.alternatives, List.flatMap_append, List.flatMap_append, Filter.boundValues,
      Filter.bound_alternatives n wrapped h.1.1, Filter.bound_conditionScripts n conditions h.1.2,
      Filter.bound_groupTerms n groups h.2, List.append_assoc]

theorem Filter.bound_conditionScripts : ∀ (n : Naming) (conditions : List Condition),
    (Filter.conditionScripts n conditions).findSome? failure? = none →
    (Filter.conditionScripts n conditions).flatMap bound = Condition.boundValues conditions
  | _, [], _ => rfl
  | n, ⟨field, test⟩ :: rest, h => by
    rw [Filter.conditionScripts, findSome?_cons_or, Option.or_eq_none_iff] at h
    rw [Filter.conditionScripts, List.flatMap_cons, Condition.boundValues,
      Test.bound_script n field test h.1, Filter.bound_conditionScripts n rest h.2]

theorem Test.bound_script : ∀ (n : Naming) (field : String) (test : Test),
    failure? (Test.script n field test) = none →
    bound (Test.script n field test) = test.boundValues
  | _, _, .compare _ _, _ | _, _, .null, _ | _, _, .notNull, _ => by
    simp [Test.script, Test.boundValues]
  | _, _, .between _ _, _ | _, _, .notBetween _ _, _ => by
    simp [Test.script, Test.boundValues, Filter.rangeOperand]
  | _, _, .inList _, _ | _, _, .notIn _, _ => by
    simp [Test.script, Test.boundValues, Filter.bound_listOperand]
  | _, _, .inSubquery query, h => by
    simp only [Test.script, failure?, pieceFailure?, Option.none_or, Option.or_none] at h
    simp [Test.script, Test.boundValues, Select.bound_script_of_failure? query none h]

end

/-! ### The other statements -/

theorem Insert.bound_script (i : Insert) (h : failure? i.script = none) :
    bound i.script = i.fields.boundValues ++ i.fields.upsertValues i.upsert := by
  rw [failure?_script] at h
  rw [script]
  cases hSorted : i.fields.sorted with
  | error e => rw [hSorted] at h; simp at h
  | ok entries =>
    cases entries with
    | nil => rw [hSorted] at h; simp at h
    | cons a rest =>
      simp only [hSorted] at h ⊢
      cases hCheck : Upsert.check i.table (Assignments.fields (a :: rest)) i.upsert with
      | error e => rw [hCheck] at h; simp at h
      | ok u =>
        have hUpsert : bound (upsertScript (a :: rest) i.upsert)
            = i.fields.upsertValues i.upsert := by
          rw [bound_upsertScript, Assignments.sorted_eq_ok hSorted]
          cases i.upsert <;> rfl
        rw [Assignments.boundValues, ← Assignments.sorted_eq_ok hSorted]
        simp [hUpsert, bound_joined, List.flatMap_map, ← List.map_eq_flatMap]

theorem BulkInsert.bound_script (b : BulkInsert) (h : failure? b.script = none) :
    bound b.script = b.rows.flatten := by
  rw [failure?_script] at h
  rw [script]
  cases hRefusal : b.refusal with
  | some e => rw [hRefusal] at h; simp at h
  | none =>
    cases hRows : b.rows with
    | nil => rw [hRefusal, hRows] at h; simp at h
    | cons row rest =>
      simp only [hRefusal, hRows] at h ⊢
      cases hCheck : Upsert.check b.table b.columns b.upsert with
      | error e => rw [hCheck] at h; simp at h
      | ok u =>
        simp [bound_joined, rowScript, bound_placeholders, bound_upsertScript, List.flatMap_map,
          List.flatMap_id']

/-- A row is only taken if none was refused, and then its values come last. -/
theorem BulkInsert.rows_row {b : BulkInsert} {fields : Assignments}
    (h : (b.row fields).refusal = none) :
    b.refusal = none ∧ (b.row fields).rows = b.rows ++ [fields.boundValues] := by
  rw [row] at h ⊢
  cases hRefusal : b.refusal with
  | some e => simp [hRefusal] at h
  | none =>
    simp only [hRefusal] at h ⊢
    cases hFit : b.fit fields with
    | error e => simp [hFit] at h
    | ok entries =>
      refine ⟨trivial, ?_⟩
      rw [fit] at hFit
      split at hFit
      · cases hFit
      · next taken hSorted =>
        have hTaken : taken = entries := by
          split at hFit <;> split at hFit <;> first | exact Except.ok.inj hFit | cases hFit
        rw [← hTaken, Assignments.sorted_eq_ok hSorted, Assignments.boundValues]

theorem BulkInsert.rows_foldl_row (rows : List Assignments) : ∀ b : BulkInsert,
    (rows.foldl row b).refusal = none →
    b.refusal = none ∧ (rows.foldl row b).rows = b.rows ++ rows.map Assignments.boundValues := by
  induction rows with
  | nil =>
    intro b h
    exact ⟨h, (List.append_nil _).symm⟩
  | cons fields rest ih =>
    intro b h
    obtain ⟨hRow, hRest⟩ := ih (b.row fields) h
    obtain ⟨hStart, hTaken⟩ := rows_row hRow
    refine ⟨hStart, ?_⟩
    rw [List.foldl_cons, hRest, hTaken, List.append_assoc, List.map_cons]
    rfl

/-- Rows that compile bind their values row by row, each in the order of its fields. -/
theorem BulkInsert.bound_script_ofRows {table : String} {upsert : Option Upsert}
    {rows : List Assignments} (h : failure? (ofRows table upsert rows).script = none) :
    bound (ofRows table upsert rows).script = rows.flatMap Assignments.boundValues := by
  have hRefusal : (ofRows table upsert rows).refusal = none := by
    rw [failure?_script] at h
    cases hr : (ofRows table upsert rows).refusal with
    | none => rfl
    | some e => simp [hr] at h
  obtain ⟨-, hRows⟩ := rows_foldl_row rows (into table) hRefusal
  have hTaken : (ofRows table upsert rows).rows = rows.map Assignments.boundValues := hRows
  rw [bound_script _ h, hTaken, List.flatMap_def]

theorem Update.bound_script (u : Update) (h : failure? u.script = none) :
    bound u.script = u.fields.boundValues ++ u.filter.boundValues := by
  rw [failure?_script] at h
  rw [script]
  cases hSorted : u.fields.sorted with
  | error e => rw [hSorted] at h; simp at h
  | ok entries =>
    simp only [hSorted] at h ⊢
    by_cases hEmpty : (entries.isEmpty && u.removal.isNone) = true
    · rw [if_pos hEmpty] at h; simp at h
    · rw [if_neg hEmpty] at h ⊢
      cases hPlan : u.plan with
      | error e => rw [hPlan] at h; simp at h
      | ok p =>
        simp only [hPlan, Option.or_eq_none_iff] at h ⊢
        rw [Assignments.boundValues, ← Assignments.sorted_eq_ok hSorted,
          ← Filter.bound_terms p.naming u.filter h.2]
        simp [bound_joined, bound_setScripts, Join.bound_scripts, bound_whereScript]

theorem Delete.bound_script (d : Delete) (h : failure? d.script = none) :
    bound d.script = d.filter.boundValues := by
  rw [failure?_script] at h
  rw [script]
  cases hPlan : d.plan with
  | error e => rw [hPlan] at h; simp at h
  | ok p =>
    simp only [hPlan, Option.or_eq_none_iff] at h ⊢
    rw [← Filter.bound_terms p.naming d.filter h.2]
    simp [Join.bound_scripts, bound_whereScript]

theorem Union.bound_members {members : List Select}
    (h : (members.findSome? fun query => failure? (query.script none)) = none) :
    (members.flatMap fun query => bound (query.script none))
      = members.flatMap Select.boundValues := by
  induction members with
  | nil => rfl
  | cons query rest ih =>
    rw [findSome?_cons_or, Option.or_eq_none_iff] at h
    rw [List.flatMap_cons, List.flatMap_cons, ih h.2, query.bound_script_of_failure? none h.1]

theorem Union.bound_script (u : Union) (h : failure? u.script = none) :
    bound u.script = JsonSelect.boundValues u.outer.json ++ u.members.flatMap Select.boundValues
      ++ u.outer.filter.boundValues := by
  rw [failure?_script] at h
  rw [script]
  by_cases hCount : u.members.length < 2
  · simp [hCount] at h
  · rw [if_neg hCount] at h ⊢
    cases hPlan : u.outer.plan none with
    | error e => rw [hPlan] at h; simp at h
    | ok p =>
      simp only [hPlan, Option.or_eq_none_iff] at h ⊢
      obtain ⟨hJson, hMembers, -, hTerms⟩ := h
      rw [← JsonSelect.bound_scripts p.naming u.outer.json hJson, ← bound_members hMembers,
        ← Filter.bound_terms p.naming u.outer.filter hTerms]
      simp [Selection.bound_listScript, Selection.bound_tailScript, Join.bound_scripts,
        bound_whereScript, bound_joined, List.flatMap_map, bound_memberScript]

/-- A statement that compiles binds its values in the order in which they are listed. -/
theorem Statement.bound_script (s : Statement) (h : failure? s.script = none) :
    bound s.script = s.boundValues := by
  cases s with
  | select s => exact s.bound_script_of_failure? none h
  | insert i => exact i.bound_script h
  | bulkInsert b => exact b.bound_script h
  | update u => exact u.bound_script h
  | delete d => exact d.bound_script h
  | union u => exact u.bound_script h

end SqlStatement
