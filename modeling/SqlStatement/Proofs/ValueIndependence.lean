import SqlStatement.Proofs.ValueMap

/-!
# Values never reach the text

A function on values is carried out on all values that a statement binds.
Nothing else of what the statement compiles to changes: neither the text, nor
whether there is one, nor the error.

* `Assignments.sorted_mapValues`, `BulkInsert.ofRows_mapValues`: neither sorting
  nor the rows that are taken or refused depend on the values.
* `Statement.compile_mapValues`: on statements and on the rows of a bulk insert.
-/

namespace SqlStatement

open Script

variable (g : Value → Value)

/-! ### Statements that write -/

namespace Assignments

def mapValues (l : Assignments) : Assignments := l.map fun a => { a with value := g a.value }

@[simp] theorem fields_mapValues (l : Assignments) : fields (mapValues g l) = fields l := by
  simp [fields, mapValues]

/-- The order looks at the fields only. -/
theorem byField_mapValues (l : Assignments) : byField (mapValues g l) = mapValues g (byField l) := by
  have h := @List.map_mergeSort _ _ (fun a b : Assignment => decide (a.field ≤ b.field))
    (fun a b => decide (a.field ≤ b.field)) (fun a => { a with value := g a.value }) l
    fun _ _ _ _ => rfl
  exact h.symm

theorem repeated?_mapValues : ∀ l : Assignments, repeated? (mapValues g l) = repeated? l
  | [] | [_] => rfl
  | a :: b :: rest => by
    have ih := repeated?_mapValues (b :: rest)
    show (if a.field = b.field then some a.field else repeated? (mapValues g (b :: rest))) = _
    rw [ih, repeated?]

theorem sorted_mapValues (l : Assignments) :
    sorted (mapValues g l) = (sorted l).map (mapValues g) := by
  rw [sorted, sorted, byField_mapValues, repeated?_mapValues]
  cases repeated? (byField l) <;> rfl

theorem map_value_mapValues (l : Assignments) :
    (mapValues g l).map (·.value) = (l.map (·.value)).map g := by
  simp [mapValues, Function.comp_def]

theorem map_set_mapValues (n : Naming) (l : Assignments) :
    (mapValues g l).map (Assignment.set n)
      = (l.map (Assignment.set n)).map (Script.mapValues g) := by
  simp [mapValues, Assignment.set, Function.comp_def]

theorem map_update_mapValues (n : Naming) (l : Assignments) :
    (mapValues g l).map (Assignment.update n)
      = (l.map (Assignment.update n)).map (Script.mapValues g) := by
  have hUpdate : ∀ a : Assignment, Assignment.update n { a with value := g a.value }
      = Script.mapValues g (a.update n) := by
    rintro ⟨field, kind, value⟩
    cases kind <;> rfl
  simp [mapValues, hUpdate]

end Assignments

def Insert.mapValues (i : Insert) : Insert := { i with fields := i.fields.mapValues g }

theorem Insert.upsertScript_mapValues (entries : Assignments) (u : Option Upsert) :
    upsertScript (entries.mapValues g) u = Script.mapValues g (upsertScript entries u) := by
  cases u with
  | none => rfl
  | some u =>
    have hChosen : (entries.mapValues g).filter (fun a => u.includes a.field)
        = Assignments.mapValues g (entries.filter fun a => u.includes a.field) := by
      simp [Assignments.mapValues, List.filter_map, Function.comp_def]
    simp only [upsertScript, hChosen, Assignments.map_update_mapValues, mapValues_append,
      Script.mapValues, mapPiece, mapValues_joined]

theorem Insert.script_mapValues (i : Insert) :
    (i.mapValues g).script = Script.mapValues g i.script := by
  rw [script, script, mapValues, Assignments.sorted_mapValues]
  cases i.fields.sorted with
  | error e => rfl
  | ok entries =>
    cases entries with
    | nil => rfl
    | cons a rest =>
      have hCons : Assignments.mapValues g (a :: rest)
          = { a with value := g a.value } :: Assignments.mapValues g rest := rfl
      have hCheck : Upsert.check i.table (Assignments.fields ({ a with value := g a.value }
          :: Assignments.mapValues g rest)) i.upsert
            = Upsert.check i.table (Assignments.fields (a :: rest)) i.upsert := by
        rw [← hCons, Assignments.fields_mapValues]
      cases h : Upsert.check i.table (Assignments.fields (a :: rest)) i.upsert with
      | error e =>
        rw [h] at hCheck
        simp only [Except.map, hCons, h, hCheck]
        rfl
      | ok u =>
        rw [h] at hCheck
        simp only [Except.map, hCons, h, hCheck]
        simp only [← hCons, mapValues_append, Script.mapValues, mapPiece, mapValues_joined,
          ← upsertScript_mapValues, ← Assignments.map_set_mapValues]

namespace BulkInsert

/-- The statement with `g` carried out on the rows it has taken. -/
def mapValues (b : BulkInsert) : BulkInsert := { b with rows := b.rows.map (List.map g) }

theorem fit_mapValues (b : BulkInsert) (fields : Assignments) :
    (b.mapValues g).fit (fields.mapValues g) = (b.fit fields).map (Assignments.mapValues g) := by
  rw [fit, fit, Assignments.sorted_mapValues]
  cases fields.sorted with
  | error e => rfl
  | ok entries =>
    have hEmpty : (Assignments.mapValues g entries).isEmpty = entries.isEmpty := by
      cases entries <;> rfl
    simp only [Except.map, mapValues, List.isEmpty_map, List.length_map, hEmpty,
      Assignments.fields_mapValues]
    split <;> split <;> rfl

theorem row_mapValues (b : BulkInsert) (fields : Assignments) :
    (b.mapValues g).row (fields.mapValues g) = (b.row fields).mapValues g := by
  rw [row, row, fit_mapValues]
  cases hRefusal : b.refusal with
  | some e => simp [mapValues, hRefusal]
  | none =>
    cases b.fit fields with
    | error e => simp [mapValues, hRefusal, Except.map]
    | ok entries =>
      simp [mapValues, hRefusal, Except.map, Assignments.map_value_mapValues]

theorem foldl_row_mapValues (rows : List Assignments) : ∀ b : BulkInsert,
    (rows.map (Assignments.mapValues g)).foldl row (b.mapValues g)
      = (rows.foldl row b).mapValues g := by
  induction rows with
  | nil => exact fun _ => rfl
  | cons fields rest ih =>
    intro b
    rw [List.map_cons, List.foldl_cons, List.foldl_cons, row_mapValues, ih]

/-- Which rows are taken, and which one is refused, does not depend on the values. -/
theorem ofRows_mapValues (table : String) (upsert : Option Upsert) (rows : List Assignments) :
    ofRows table upsert (rows.map (Assignments.mapValues g))
      = (ofRows table upsert rows).mapValues g := by
  have h := foldl_row_mapValues g rows (into table)
  rw [ofRows, show into table = (into table).mapValues g from rfl, h]
  rfl

theorem script_mapValues (b : BulkInsert) :
    (b.mapValues g).script = Script.mapValues g b.script := by
  have hUpsert : Script.mapValues g (upsertScript b.columns b.upsert)
      = upsertScript b.columns b.upsert := by
    cases b.upsert <;> rfl
  rw [script, script, mapValues]
  cases b.refusal with
  | some e => rfl
  | none =>
    cases b.rows with
    | nil => rfl
    | cons row rest =>
      cases h : Upsert.check b.table b.columns b.upsert with
      | error e => simp
      | ok u =>
        simp [hUpsert, mapValues_joined, rowScript, mapValues_placeholders, Function.comp_def]

end BulkInsert

def Update.mapValues (u : Update) : Update :=
  { u with fields := u.fields.mapValues g, filter := u.filter.mapValues g }

theorem Update.plan_mapValues (u : Update) : (u.mapValues g).plan = u.plan := by
  simp only [mapValues, plan, mentioned, Assignments.fields_mapValues, Filter.fields_mapValues]

theorem Update.mapValues_setScripts (n : Naming) (entries : Assignments)
    (removal : Option JsonRemoval) :
    setScripts n (entries.mapValues g) removal
      = (setScripts n entries removal).map (Script.mapValues g) := by
  cases removal <;> simp [setScripts, removalScript, Assignments.map_update_mapValues]

theorem Update.script_mapValues (u : Update) :
    (u.mapValues g).script = Script.mapValues g u.script := by
  rw [script, script, plan_mapValues]
  simp only [mapValues, Assignments.sorted_mapValues]
  cases u.fields.sorted with
  | error e => rfl
  | ok entries =>
    have hEmpty : (Assignments.mapValues g entries).isEmpty = entries.isEmpty := by
      cases entries <;> rfl
    simp only [Except.map, hEmpty]
    split
    · rfl
    · cases u.plan with
      | error e => rfl
      | ok p =>
        simp [mapValues_setScripts, mapValues_joined, Join.mapValues_scripts,
          mapValues_whereScript, Filter.terms_mapValues]

def Delete.mapValues (d : Delete) : Delete := { d with filter := d.filter.mapValues g }

theorem Delete.script_mapValues (d : Delete) :
    (d.mapValues g).script = Script.mapValues g d.script := by
  have hPlan : (d.mapValues g).plan = d.plan := by
    simp only [mapValues, plan, Filter.fields_mapValues]
  rw [script, script, hPlan]
  cases d.plan with
  | error e => rfl
  | ok p =>
    simp [mapValues, Join.mapValues_scripts, mapValues_whereScript, Filter.terms_mapValues]

/-! ### Unions -/

def Union.mapValues (u : Union) : Union :=
  { u with outer := u.outer.mapValues g, members := u.members.map (Select.mapValues g) }

theorem Union.memberScript_mapValues (query : Select) :
    memberScript (query.mapValues g) = Script.mapValues g (memberScript query) := by
  simp [memberScript, Select.script_mapValues]

theorem Union.script_mapValues (u : Union) :
    (u.mapValues g).script = Script.mapValues g u.script := by
  obtain ⟨⟨source, selection, filter, json⟩, members, keepDuplicates⟩ := u
  have hPlan := Select.plan_mapValues g ⟨source, selection, filter, json⟩ none
  rw [script, script, mapValues]
  simp only [List.length_map]
  split
  · rfl
  · rw [hPlan]
    cases Select.plan ⟨source, selection, filter, json⟩ none with
    | error e => rfl
    | ok p =>
      simp [Select.mapValues, JsonSelect.scripts_mapValues, Selection.mapValues_listScript,
        mapValues_joined, memberScript_mapValues, Join.mapValues_scripts, mapValues_whereScript,
        Filter.terms_mapValues, Selection.mapValues_tailScript, Function.comp_def, separator]

/-! ### Statements -/

/-- The statement with `g` carried out on all values that it binds. -/
def Statement.mapValues : Statement → Statement
  | .select s => .select (s.mapValues g)
  | .insert i => .insert (i.mapValues g)
  | .bulkInsert b => .bulkInsert (b.mapValues g)
  | .update u => .update (u.mapValues g)
  | .delete d => .delete (d.mapValues g)
  | .union u => .union (u.mapValues g)

theorem Statement.script_mapValues (s : Statement) :
    (s.mapValues g).script = Script.mapValues g s.script := by
  cases s with
  | select s => exact s.script_mapValues g none
  | insert i => exact i.script_mapValues g
  | bulkInsert b => exact b.script_mapValues g
  | update u => exact u.script_mapValues g
  | delete d => exact d.script_mapValues g
  | union u => exact u.script_mapValues g

/-- Other values give the same text or the same error, and bind just these values. -/
theorem Statement.compile_mapValues (schema : String) :
    (∀ s : Statement, (s.mapValues g).compile schema
      = (s.compile schema).map (Compiled.mapParams g)) ∧
    ∀ table upsert rows,
      (Statement.bulkInsert (.ofRows table upsert (rows.map (Assignments.mapValues g)))).compile schema
        = ((Statement.bulkInsert (.ofRows table upsert rows)).compile schema).map
          (Compiled.mapParams g) := by
  have hCompile : ∀ s : Statement, (s.mapValues g).compile schema
      = (s.compile schema).map (Compiled.mapParams g) := by
    intro s
    rw [compile, script_mapValues, Script.compile_of_mapValues]
    rfl
  refine ⟨hCompile, fun table upsert rows => ?_⟩
  rw [BulkInsert.ofRows_mapValues]
  exact hCompile (.bulkInsert (.ofRows table upsert rows))

end SqlStatement
