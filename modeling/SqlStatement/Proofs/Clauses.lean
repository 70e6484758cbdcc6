import SqlStatement.Proofs.Outcome
import SqlStatement.Statement

/-!
# What each clause contributes

For every clause the error it fails with and the values it binds, in terms of
the scripts that come into it.  A text never fails and binds nothing, so only
what is itself a statement, or holds one, is left on the right.

* `Selection.failure?_listScript`, `Selection.failure?_objectScript`: the select
  list fails as its JSON sub-selects do, the first one first.
* `JsonTable.failure?_script`, `Join.failure?_scripts`: the two clauses that can
  fail by themselves.
* `failure?_whereScript`, `bound_whereScript`: WHERE is its terms.
* `Source.assign_of_plan`: the aliases of a plan.
* `Select.failure?_script`, `Select.bound_script` and those of the other
  statements: a whole statement, clause after clause.
-/

namespace SqlStatement

open Script

/-! ### The select list -/

namespace Selection

variable (n : Naming) (s : Selection) (json : List NamedScript)

theorem failure?_items : (s.items n json).findSome? failure? = json.findSome? (failure? ·.body) := by
  simp [items, List.findSome?_append, List.findSome?_map, Function.comp_def]

theorem bound_items : (s.items n json).flatMap bound = json.flatMap (bound ·.body) := by
  simp [items, List.flatMap_map]

theorem failure?_listScript :
    failure? (s.listScript n json) = json.findSome? (failure? ·.body) := by
  rw [← failure?_items n s json, listScript]
  by_cases h : s.items n json = []
  · simp [h]
  · simp [h, failure?_joined]

theorem bound_listScript : bound (s.listScript n json) = json.flatMap (bound ·.body) := by
  rw [← bound_items n s json, listScript]
  by_cases h : s.items n json = []
  · simp [h]
  · simp [h, bound_joined]

theorem failure?_objectScript :
    failure? (s.objectScript n json) = json.findSome? (failure? ·.body) := by
  simp [objectScript, failure?_joined, members, List.findSome?_append, List.findSome?_map,
    Function.comp_def]

theorem bound_objectScript : bound (s.objectScript n json) = json.flatMap (bound ·.body) := by
  simp [objectScript, bound_joined, members, List.flatMap_map]

end Selection

/-! ### FROM and its JSON tables -/

/-- Whether a JSON table has what it needs. -/
def JsonTable.isComplete (t : JsonTable) : Bool := t.source.isSome && !t.columns.isEmpty

theorem JsonTable.failure?_script (n : Naming) (t : JsonTable) :
    failure? (t.script n) = if t.isComplete then none else some (.incompleteJsonTable t.name) := by
  rw [script, isComplete]
  cases t.source <;> cases t.columns <;> simp

@[simp] theorem JsonTable.bound_script (n : Naming) (t : JsonTable) : bound (t.script n) = [] := by
  rw [script]
  cases t.source <;> cases t.columns <;> simp

theorem Selection.failure?_fromScript (n : Naming) (table : String) (s : Selection) :
    failure? (s.fromScript n table) = s.jsonTables.findSome? fun t => failure? (t.script n) := by
  simp [fromScript, failure?_flatMap]

theorem Selection.bound_fromScript (n : Naming) (table : String) (s : Selection) :
    bound (s.fromScript n table) = [] := by
  simp [fromScript, bound_flatMap]

/-! ### Joins -/

/-- Whether an operator may stand in an ON clause. -/
def Operator.joins (op : Operator) : Bool := op.isNullTest || op.isComparison

theorem OnTerm.failure?_script (n : Naming) (name : String) (t : OnTerm) :
    failure? (t.script n name)
      = if t.operator.joins then none else some (.unsupportedJoinOperator name t.operator) := by
  rw [script, Operator.joins]
  cases t.operator.isNullTest <;> cases t.operator.isComparison <;> cases t.target <;> simp

@[simp] theorem OnTerm.bound_script (n : Naming) (name : String) (t : OnTerm) :
    bound (t.script n name) = [] := by
  rw [script]
  cases t.operator.isNullTest <;> cases t.operator.isComparison <;> cases t.target <;> simp

theorem Join.failure?_scripts (n : Naming) (joins : List Join) :
    failure? (scripts n joins)
      = joins.findSome? fun j => j.terms.findSome? fun t => failure? (t.script n j.name) := by
  rw [scripts, failure?_flatMap]
  simp [script, failure?_flatMap]

theorem Join.bound_scripts (n : Naming) (joins : List Join) : bound (scripts n joins) = [] := by
  rw [scripts, bound_flatMap]
  simp [script, bound_flatMap]

/-! ### WHERE -/

section Where

variable (n : Naming) (correlation : Option Correlation) (row : Option UInt64)
  (terms : List Script)

/-- The terms of a WHERE line with its two fixed ones. -/
def whereTerms : List Script :=
  (correlation.map (Correlation.term n)).toList ++ (row.map (Source.rowTerm n)).toList ++ terms

theorem whereScript_eq : whereScript n correlation row terms
    = if whereTerms n correlation row terms = [] then []
      else .text "WHERE " :: joined " AND " (whereTerms n correlation row terms)
        ++ [.text "\n"] := by
  rw [whereScript, ← whereTerms]
  cases whereTerms n correlation row terms <;> rfl

theorem failure?_whereTerms :
    (whereTerms n correlation row terms).findSome? failure? = terms.findSome? failure? := by
  cases correlation <;> cases row <;>
    simp [whereTerms, Correlation.term, Source.rowTerm]

theorem bound_whereTerms :
    (whereTerms n correlation row terms).flatMap bound = terms.flatMap bound := by
  cases correlation <;> cases row <;> simp [whereTerms, Correlation.term, Source.rowTerm]

theorem failure?_whereScript :
    failure? (whereScript n correlation row terms) = terms.findSome? failure? := by
  rw [← failure?_whereTerms n correlation row terms, whereScript_eq]
  split
  · next h => rw [h]; rfl
  · simp [failure?_joined]

theorem bound_whereScript :
    bound (whereScript n correlation row terms) = terms.flatMap bound := by
  rw [← bound_whereTerms n correlation row terms, whereScript_eq]
  split
  · next h => rw [h]; rfl
  · simp [bound_joined]

end Where

namespace Filter

theorem failure?_parenthesised (alternatives : List Script) :
    (parenthesised alternatives).findSome? failure? = alternatives.findSome? failure? := by
  cases alternatives with
  | nil => rfl
  | cons a rest => simp [parenthesised, findSome?_cons_or, failure?_joined]

theorem bound_parenthesised (alternatives : List Script) :
    (parenthesised alternatives).flatMap bound = alternatives.flatMap bound := by
  cases alternatives with
  | nil => rfl
  | cons a rest => simp [parenthesised, bound_joined]

/-- A term without an error is the one that was guarded. -/
theorem guarded_eq {verdict : Except CompileError Unit} {s : Script}
    (h : failure? (guarded verdict s) = none) : guarded verdict s = s := by
  cases verdict with
  | error e => simp [guarded] at h
  | ok u => rfl

theorem failure?_listOperand (field : String) (op : Operator) (values : List Value) :
    failure? (listOperand field op values)
      = if values = [] then some (.emptyInList field op) else none := by
  cases values <;> simp [listOperand, failure?_placeholders]

theorem bound_listOperand (field : String) (op : Operator) (values : List Value) :
    bound (listOperand field op values) = values := by
  cases values <;> simp [listOperand, bound_placeholders]

/-- Without errors the guards leave the conditions as they are. -/
theorem conditionTerms_eq {n : Naming} : ∀ {conditions : List Condition}
    {seen : List (String × Operator)},
    (conditionTerms n seen conditions).findSome? failure? = none →
    conditionTerms n seen conditions = conditionScripts n conditions
  | [], _, _ => rfl
  | ⟨field, test⟩ :: rest, seen, hNone => by
    rw [conditionTerms, findSome?_cons_or, Option.or_eq_none_iff] at hNone
    rw [conditionTerms, conditionScripts, guarded_eq hNone.1, conditionTerms_eq hNone.2]

theorem alternatives_eq (n : Naming) (f : Filter) : alternatives n f
    = f.wrapped.toList.flatMap (alternatives n) ++ conditionScripts n f.conditions
      ++ groupTerms n f.groups := by
  obtain ⟨wrapped, conditions, groups⟩ := f
  cases wrapped <;> simp [alternatives]

theorem terms_eq (n : Naming) (f : Filter) : terms n f
    = f.wrapped.toList.flatMap (terms n) ++ conditionTerms n [] f.conditions
      ++ groupTerms n f.groups := by
  obtain ⟨wrapped, conditions, groups⟩ := f
  cases wrapped <;> simp [terms]

end Filter

/-! ### The tail -/

namespace Selection

theorem failure?_listed (heading : String) (items : List String) :
    failure? (listed heading items) = none := by
  cases items <;> simp [listed]

theorem bound_listed (heading : String) (items : List String) :
    bound (listed heading items) = [] := by
  cases items <;> simp [listed]

theorem failure?_tailScript (n : Naming) (s : Selection) : failure? (s.tailScript n) = none := by
  simp only [tailScript, failure?_append, failure?_listed, Option.none_or]
  split <;> split <;> simp

theorem bound_tailScript (n : Naming) (s : Selection) : bound (s.tailScript n) = [] := by
  simp only [tailScript, bound_append, bound_listed, List.nil_append]
  split <;> split <;> simp

end Selection

/-! ### Plans -/

theorem Source.assign_of_plan {s : Source} {force : Bool} {reserved mentioned : List String}
    {p : Plan} (h : s.plan force reserved mentioned = .ok p) :
    Naming.assign s.table s.requested s.joins force reserved = .ok p.naming := by
  rw [plan] at h
  split at h
  · cases h
  · next hAssign =>
    split at h
    · split at h
      · cases h
      · rw [← Except.ok.inj h, hAssign]
    · rw [← Except.ok.inj h, hAssign]

/-! ### Selects -/

namespace Select

/-- The first error of a select: that of its plan, or else of its JSON sub-selects, its JSON tables,
its joins and its filter, in this order. -/
theorem failure?_script (s : Select) (correlation : Option Correlation) :
    failure? (s.script correlation) = match s.plan correlation with
      | .error e => some e
      | .ok p =>
        ((JsonSelect.scripts p.naming s.json).findSome? (failure? ·.body)).or <|
        (s.selection.jsonTables.findSome? fun t => failure? (t.script p.naming)).or <|
        (failure? (Join.scripts p.naming p.joins)).or <|
        (s.filter.terms p.naming).findSome? failure? := by
  obtain ⟨source, selection, filter, json⟩ := s
  rw [script]
  cases plan ⟨source, selection, filter, json⟩ correlation with
  | error e => rfl
  | ok p =>
    cases correlation <;>
      simp [Selection.failure?_listScript, Selection.failure?_objectScript,
        Selection.failure?_fromScript, failure?_whereScript, Selection.failure?_tailScript]

/-- A select binds the values of its JSON sub-selects, then those of its filter. -/
theorem bound_script (s : Select) (correlation : Option Correlation) :
    bound (s.script correlation) = match s.plan correlation with
      | .error _ => []
      | .ok p => (JsonSelect.scripts p.naming s.json).flatMap (bound ·.body)
          ++ (s.filter.terms p.naming).flatMap bound := by
  obtain ⟨source, selection, filter, json⟩ := s
  rw [script]
  cases plan ⟨source, selection, filter, json⟩ correlation with
  | error e => rfl
  | ok p =>
    cases correlation <;>
      simp [Selection.bound_listScript, Selection.bound_objectScript, Selection.bound_fromScript,
        Join.bound_scripts, bound_whereScript, Selection.bound_tailScript]

end Select

/-! ### Statements that write -/

theorem Assignments.sorted_eq_ok {l entries : Assignments} (h : l.sorted = .ok entries) :
    entries = l.byField := by
  rw [sorted] at h
  split at h
  · cases h
  · exact (Except.ok.inj h).symm

@[simp] theorem Assignment.failure?_set (n : Naming) (a : Assignment) :
    failure? (a.set n) = none := by
  simp [set]

@[simp] theorem Assignment.bound_set (n : Naming) (a : Assignment) :
    bound (a.set n) = [a.value] := by
  simp [set]

@[simp] theorem Assignment.failure?_update (n : Naming) (a : Assignment) :
    failure? (a.update n) = none := by
  rw [update]
  cases a.kind <;> simp

@[simp] theorem Assignment.bound_update (n : Naming) (a : Assignment) :
    bound (a.update n) = [a.value] := by
  rw [update]
  cases a.kind <;> simp

namespace Insert

theorem failure?_upsertScript (entries : Assignments) (u : Option Upsert) :
    failure? (upsertScript entries u) = none := by
  cases u with
  | none => rfl
  | some u => simp [upsertScript, failure?_joined, List.findSome?_map, Function.comp_def]

theorem bound_upsertScript (entries : Assignments) (u : Option Upsert) :
    bound (upsertScript entries u) = match u with
      | none => []
      | some u => (entries.filter fun a => u.includes a.field).map (·.value) := by
  cases u with
  | none => rfl
  | some u => simp [upsertScript, bound_joined, List.flatMap_map, ← List.map_eq_flatMap]

theorem failure?_script (i : Insert) :
    failure? i.script = match i.fields.sorted with
      | .error e => some e
      | .ok [] => some (.emptyFieldList i.table)
      | .ok entries => match Upsert.check i.table entries.fields i.upsert with
        | .error e => some e
        | .ok () => none := by
  rw [script]
  cases i.fields.sorted with
  | error e => rfl
  | ok entries =>
    cases entries with
    | nil => rfl
    | cons a rest =>
      cases h : Upsert.check i.table (Assignments.fields (a :: rest)) i.upsert with
      | error e => simp [h]
      | ok u =>
        simp [h, failure?_joined, failure?_upsertScript, List.findSome?_map, Function.comp_def]

end Insert

namespace BulkInsert

theorem failure?_upsertScript (columns : List String) (u : Option Upsert) :
    failure? (upsertScript columns u) = none := by
  cases u <;> simp [upsertScript]

theorem bound_upsertScript (columns : List String) (u : Option Upsert) :
    bound (upsertScript columns u) = [] := by
  cases u <;> simp [upsertScript]

theorem failure?_script (b : BulkInsert) :
    failure? b.script = match b.refusal, b.rows with
      | some e, _ => some e
      | none, [] => some (.noRows b.table)
      | none, _ => match Upsert.check b.table b.columns b.upsert with
        | .error e => some e
        | .ok () => none := by
  rw [script]
  cases b.refusal with
  | some e => rfl
  | none =>
    cases b.rows with
    | nil => rfl
    | cons row rest =>
      cases h : Upsert.check b.table b.columns b.upsert with
      | error e => rfl
      | ok u =>
        simp [failure?_joined, failure?_upsertScript, rowScript, failure?_placeholders,
          List.findSome?_map, Function.comp_def]

end BulkInsert

namespace Update

theorem failure?_setScripts (n : Naming) (entries : Assignments) (removal : Option JsonRemoval) :
    (setScripts n entries removal).findSome? failure? = none := by
  cases removal <;>
    simp [setScripts, removalScript, List.findSome?_map, Function.comp_def]

theorem bound_setScripts (n : Naming) (entries : Assignments) (removal : Option JsonRemoval) :
    (setScripts n entries removal).flatMap bound = entries.map (·.value) := by
  cases removal <;>
    simp [setScripts, removalScript, List.flatMap_map, ← List.map_eq_flatMap]

theorem failure?_script (u : Update) :
    failure? u.script = match u.fields.sorted with
      | .error e => some e
      | .ok entries =>
        if entries.isEmpty && u.removal.isNone then some (.emptyFieldList u.source.table)
        else match u.plan with
          | .error e => some e
          | .ok p => (failure? (Join.scripts p.naming p.joins)).or
              ((u.filter.terms p.naming).findSome? failure?) := by
  rw [script]
  cases u.fields.sorted with
  | error e => rfl
  | ok entries =>
    by_cases he : (entries.isEmpty && u.removal.isNone) = true
    · simp only [he, if_true]; rfl
    · simp only [he]
      cases u.plan with
      | error e => rfl
      | ok p => simp [failure?_joined, failure?_setScripts, failure?_whereScript]

end Update

theorem Delete.failure?_script (d : Delete) :
    failure? d.script = match d.plan with
      | .error e => some e
      | .ok p => (failure? (Join.scripts p.naming p.joins)).or
          ((d.filter.terms p.naming).findSome? failure?) := by
  rw [script]
  cases d.plan with
  | error e => rfl
  | ok p => simp [failure?_whereScript]

/-! ### Unions -/

namespace Union

theorem failure?_memberScript (query : Select) :
    failure? (memberScript query) = failure? (query.script none) := by
  simp [memberScript]

theorem bound_memberScript (query : Select) :
    bound (memberScript query) = bound (query.script none) := by
  simp [memberScript]

theorem failure?_script (u : Union) :
    failure? u.script =
      if u.members.length < 2 then some (.unionMemberCount u.members.length)
      else match u.outer.plan none with
        | .error e => some e
        | .ok p =>
          ((JsonSelect.scripts p.naming u.outer.json).findSome? (failure? ·.body)).or <|
          (u.members.findSome? fun query => failure? (query.script none)).or <|
          (failure? (Join.scripts p.naming p.joins)).or <|
          (u.outer.filter.terms p.naming).findSome? failure? := by
  rw [script]
  by_cases hCount : u.members.length < 2
  · simp [hCount]
  · simp only [hCount, if_false]
    cases u.outer.plan none with
    | error e => rfl
    | ok p =>
      simp [Selection.failure?_listScript, failure?_joined, failure?_whereScript,
        Selection.failure?_tailScript, List.findSome?_map, Function.comp_def, failure?_memberScript]

end Union

end SqlStatement
