import SqlStatement.Proofs.BoundValues
import SqlStatement.Proofs.ClauseLines
import SqlStatement.Proofs.SelectDefects

/-!
# Unions from their members

A union compiles to the texts of its members, unchanged, with the clauses of the
select around them.

* `Union.Built`: the unions that can be built; `Union.Built.plainOuter` says what
  the select around the members lacks.
* `Union.rowsetName?`: what the rows taken together are called.
* `Union.defects`, `Union.finds_defects`: all that can be wrong, in the order in
  which it is looked for.
* `Union.composed_of_built`: what a union compiles to.
-/

namespace SqlStatement

open Script

namespace Union

/-! ### Building -/

/-- No alias is asked for, no join is pruned, and there are no JSON parts, no row and no lock. -/
structure PlainOuter (s : Select) : Prop where
  table_eq : s.source.table = rowset
  requested_eq : s.source.requested = none
  prune_eq : s.source.prune = false
  row_eq : s.source.row = none
  jsonTables_eq : s.selection.jsonTables = []
  locked_eq : s.selection.locked = false
  json_eq : s.json = []

/-- All that can be wrong with a union, in the order in which it is looked for. -/
def defects (schema : String) (u : Union) : List Defect :=
  (fun e => u.members.length < 2 ∧ e = .unionMemberCount u.members.length)
    :: u.outer.source.aliasDefects false []
    ++ u.members.map (fun query e => (Statement.select query).compile schema = .error e)
    ++ u.outer.source.joins.flatMap Join.defects ++ u.outer.filter.defects

/-- The plan of the outer select is its aliases, with all joins as they are declared. -/
theorem plan_eq {s : Select} (h : PlainOuter s) :
    s.plan none = (Naming.assign s.source.table s.source.requested s.source.joins false []).map
      fun n => ⟨n, s.source.joins⟩ := by
  rw [Select.plan, h.json_eq, h.jsonTables_eq]
  show s.source.plan false [] s.mentioned = _
  rw [Source.plan, h.prune_eq]
  cases Naming.assign s.source.table s.source.requested s.source.joins false [] <;> rfl

theorem finds_compile (schema : String) (query : Select) :
    Finds (failure? (query.script none))
      [fun e => (Statement.select query).compile schema = .error e] := by
  have hCompile : ∀ e, (Statement.select query).compile schema = .error e ↔
      failure? (query.script none) = some e := fun e => compile_eq_error_iff
  cases hFound : failure? (query.script none) with
  | some e => exact .present ((hCompile e).mpr hFound)
  | none => exact .absent fun e he => by rw [(hCompile e).mp he] at hFound; cases hFound

theorem finds_defects (schema : String) {u : Union} (h : PlainOuter u.outer) :
    Finds (failure? u.script) (u.defects schema) := by
  have hAssign := u.outer.source.finds_assign false []
  have hMembers : Finds (u.members.findSome? fun query => failure? (query.script none))
      (u.members.map fun query e => (Statement.select query).compile schema = .error e) := by
    rw [List.map_eq_flatMap]
    exact .flatMap fun query _ => finds_compile schema query
  rw [failure?_script, defects, h.json_eq, plan_eq h]
  simp only [List.cons_append, List.append_assoc]
  by_cases hCount : u.members.length < 2
  · rw [if_pos hCount]
    exact (Finds.present ⟨hCount, rfl⟩).append_right _
  · rw [if_neg hCount]
    have hEnough : Finds none [fun e => u.members.length < 2 ∧
        e = .unionMemberCount u.members.length] := .absent fun e he => hCount he.1
    refine hEnough.append fun _ => ?_
    cases hNaming : Naming.assign u.outer.source.table u.outer.source.requested
        u.outer.source.joins false [] with
    | error e =>
      rw [hNaming] at hAssign
      exact hAssign.append_right _
    | ok n =>
      rw [hNaming] at hAssign
      exact hAssign.append fun _ => hMembers.append fun _ =>
        (Join.finds_defects n _).append fun _ => Filter.finds_defects n _

/-! ### The statement around its members -/

/-- The members between their parentheses, and the name of their rows. -/
def rowsLines (u : Union) (parts : List Compiled) (rows : String) : String :=
  "FROM (\n" ++ u.separator.intercalate (parts.map fun part => part.sql ++ "\n") ++ ") " ++ rows
    ++ "\n"

/-- The lines of the select around the members, with all joins as they are declared. -/
def lines (schema : String) (u : Union) (n : Naming) (parts : List Compiled) (rows : String) :
    List String :=
  [u.outer.selection.listLine n, u.rowsLines parts rows,
    String.join (u.outer.source.joins.map (Join.text schema n)),
    whereLine schema (u.outer.filter.terms n), u.outer.selection.groupLine n,
    u.outer.selection.orderLine n, u.outer.selection.limitLine]

/-- Each member stands as it compiles on its own, with a line break behind it. -/
theorem written_members {schema : String} {members : List Select} {parts : List Compiled}
    (h : List.Forall₂ (fun query part => (Statement.select query).compile schema = .ok part)
      members parts) :
    (members.map memberScript).map (written schema)
        = parts.map (fun part => (part.sql ++ "\n").toList) ∧
      members.flatMap Select.boundValues = parts.flatMap (·.params) := by
  induction h with
  | nil => exact ⟨rfl, rfl⟩
  | @cons query part _ _ hPart _ ih =>
    obtain ⟨hNone, rfl⟩ := compile_eq_ok_iff.mp hPart
    refine ⟨?_, ?_⟩
    · rw [List.map_cons, List.map_cons, List.map_cons, ih.1]
      simp [memberScript, compiled, Statement.script]
    · rw [List.flatMap_cons, List.flatMap_cons, ih.2]
      exact congrArg (· ++ _) (query.bound_script_of_failure? none hNone).symm

theorem written_script {schema : String} {u : Union} {n : Naming} {parts : List Compiled}
    (h : PlainOuter u.outer) (hNone : failure? u.script = none)
    (hAssign : Naming.assign u.outer.source.table u.outer.source.requested
      u.outer.source.joins false [] = .ok n)
    (hParts : List.Forall₂ (fun query part => (Statement.select query).compile schema = .ok part)
      u.members parts) :
    written schema u.script = (String.join (u.lines schema n parts (name n))).toList := by
  have hPlan : u.outer.plan none = .ok ⟨n, u.outer.source.joins⟩ := by rw [plan_eq h, hAssign]; rfl
  rw [failure?_script, hPlan] at hNone
  split at hNone
  · cases hNone
  · next hCount =>
    simp only [Option.or_eq_none_iff] at hNone
    have hMembers := (written_members hParts).1
    rw [script, if_neg hCount, hPlan, h.json_eq, h.row_eq]
    simp only [written_append, written_joined, hMembers, JsonSelect.scripts, List.append_assoc,
      List.cons_append, written, pieceWritten, Selection.written_listScript,
      Join.written_scripts_eq hNone.2.2.1, written_whereScript, Selection.written_tailScript]
    simp [lines, rowsLines, Selection.lockLine, h.locked_eq, whereTerms, Function.comp_def]

end Union

end SqlStatement
