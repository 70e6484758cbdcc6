import SqlStatement.Proofs.Lines
import SqlStatement.Proofs.SelectDefects
import SqlStatement.Proofs.Upserts

/-!
# The text of updates

An update is its table, its joins, its assignments and its conditions, each on
lines of its own, and it binds the values of the assignments and then those of the
conditions.

* `Update.defects`: all that can be wrong with an update, in the order in which it
  is looked for.
* `Update.lines`: its lines.  An increment reads the column that it writes.
* `Update.laidOut_of_compile`: an update has a defect and fails with the first of
  them, or it is these lines.
-/

namespace SqlStatement

open Script

namespace Update

/-! ### What can be wrong -/

/-- All that can be wrong with an update, in the order in which it is looked for. -/
def defects (u : Update) : List Defect :=
  [fun e => ∃ field, IsLeast {f | u.fields.Repeats f} field ∧ e = .duplicateField field,
    fun e => (u.fields = [] ∧ u.removal = none) ∧ e = .emptyFieldList u.source.table]
    ++ u.source.planDefects false [] u.Uses ++ [u.source.joinDefect u.Uses] ++ u.filter.defects

theorem isEmpty_iff {u : Update} {entries : Assignments} (h : entries.Perm u.fields) :
    (entries.isEmpty && u.removal.isNone) = true ↔ u.fields = [] ∧ u.removal = none := by
  rw [Bool.and_eq_true, List.isEmpty_iff, Option.isNone_iff_eq_none, ← List.length_eq_zero_iff,
    h.length_eq, List.length_eq_zero_iff]

/-- An update is checked for these, one after the other. -/
theorem finds_defects (u : Update) : Finds (failure? u.script) u.defects := by
  have hFields := u.fields.finds_repeated
  rw [failure?_script, defects]
  simp only [List.cons_append, List.nil_append, List.append_assoc]
  cases hSorted : u.fields.sorted with
  | error e =>
    rw [hSorted] at hFields
    exact hFields.append_right _
  | ok entries =>
    rw [hSorted] at hFields
    obtain ⟨hPerm, -⟩ := Assignments.sorted_eq_ok_iff.mp hSorted
    have hEmpty := isEmpty_iff (u := u) hPerm
    by_cases hNothing : (entries.isEmpty && u.removal.isNone) = true
    · have hPresent : Finds (some (.emptyFieldList u.source.table))
          [fun e => (u.fields = [] ∧ u.removal = none) ∧ e = .emptyFieldList u.source.table] :=
        .present ⟨hEmpty.mp hNothing, rfl⟩
      simp only [if_pos hNothing]
      exact hFields.append fun _ => hPresent.append_right _
    · have hAbsent : Finds none
          [fun e => (u.fields = [] ∧ u.removal = none) ∧ e = .emptyFieldList u.source.table] :=
        .absent fun e he => hNothing (hEmpty.mpr he.1)
      have hPlan := u.source.finds_plan false [] fun _ => u.mem_mentioned_iff
      rw [← plan] at hPlan
      simp only [if_neg hNothing]
      refine hFields.append fun _ => hAbsent.append fun _ => ?_
      cases hp : u.plan with
      | error e =>
        rw [hp] at hPlan
        exact hPlan.append_right _
      | ok p =>
        have hWrites := Source.writes_of_plan (fun _ => u.mem_mentioned_iff) hp
        rw [hp] at hPlan
        exact hPlan.append fun _ => (Source.finds_joinDefect p.naming hWrites).append fun _ =>
          Filter.finds_defects p.naming u.filter

/-! ### Its lines -/

/-- The column and what it gets; an increment reads the same column. -/
def assignment (n : Naming) (a : Assignment) : String :=
  match a.kind with
  | .assign => n.qualify a.field ++ "=" ++ "?"
  | .increment => n.qualify a.field ++ "=" ++ n.qualify a.field ++ "+" ++ "?"

def removalText (n : Naming) (r : JsonRemoval) : String :=
  n.qualify r.field ++ "=JSON_REMOVE(" ++ n.qualify r.field ++ ", '" ++ r.path ++ "'" ++ ")"

/-- What is set: the entries, and behind them what is removed. -/
def items (n : Naming) (entries : Assignments) (removal : Option JsonRemoval) : List String :=
  entries.map (assignment n) ++ (removal.map (removalText n)).toList

def lines (schema : String) (u : Update) (n : Naming) (joins : List Join) (entries : Assignments)
    (rendered : List Compiled) : List String :=
  ["UPDATE " ++ schema ++ "." ++ u.source.table ++ n.suffix] ++ joins.map (Join.lineText schema n)
    ++ ["SET " ++ commas (items n entries u.removal)]
    ++ whereLines n none u.source.row u.filter rendered

theorem unbroken_item {n : Naming} {entries : Assignments} {removal : Option JsonRemoval} :
    ∀ item ∈ items n entries removal, Text.Unbroken item := by
  have hBehind : ∀ last : String, Text.Unbroken last → last ≠ "" →
      ∀ front, Text.Unbroken (front ++ last) := fun _ => Text.Unbroken.behind
  rw [items, List.forall_mem_append, List.forall_mem_map]
  constructor
  · intro a _
    rw [assignment]
    cases a.kind with
    | assign => exact hBehind "?" (by decide) (by decide) _
    | increment => exact hBehind "?" (by decide) (by decide) _
  · cases removal with
    | none => simp
    | some r => exact List.forall_mem_singleton.mpr (hBehind ")" (by decide) (by decide) _)

/-! ### What its script writes -/

theorem written_assignment (schema : String) (n : Naming) (a : Assignment) :
    written schema (a.update n) = (assignment n a).toList := by
  rw [Assignment.update, assignment]
  cases a.kind <;> simp [Assignment.set]

theorem written_setScripts (schema : String) (n : Naming) (entries : Assignments)
    (removal : Option JsonRemoval) : (setScripts n entries removal).map (written schema)
      = (items n entries removal).map String.toList := by
  cases removal <;>
    simp [setScripts, items, removalScript, removalText, written_assignment, Function.comp_def]

variable {u : Update} {entries : Assignments} {p : Plan}

theorem script_eq (hSorted : u.fields.sorted = .ok entries)
    (hSome : ¬ (entries.isEmpty && u.removal.isNone) = true) (hPlan : u.plan = .ok p) :
    u.script = [.aliases p.naming, .text "UPDATE ", .table u.source.table,
        .text (p.naming.suffix ++ "\n")]
      ++ Join.scripts p.naming p.joins
      ++ .text "SET " :: Script.joined ", " (setScripts p.naming entries u.removal) ++ [.text "\n"]
      ++ whereScript p.naming none u.source.row (u.filter.terms p.naming) := by
  rw [script, hSorted]
  simp only [hSome, hPlan]
  rfl

/-- What was planned for an update without errors. -/
theorem exists_plan_of_failure? (h : failure? u.script = none) : ∃ entries p,
    u.fields.sorted = .ok entries ∧ ¬ (entries.isEmpty && u.removal.isNone) = true ∧
      u.plan = .ok p ∧ failure? (Join.scripts p.naming p.joins) = none ∧
      (u.filter.terms p.naming).findSome? failure? = none := by
  rw [failure?_script] at h
  cases hSorted : u.fields.sorted with
  | error e => rw [hSorted] at h; cases h
  | ok entries =>
    simp only [hSorted] at h
    split at h
    · cases h
    · next hSome =>
      cases hPlan : u.plan with
      | error e => rw [hPlan] at h; cases h
      | ok p =>
        simp only [hPlan, Option.or_eq_none_iff] at h
        exact ⟨entries, p, rfl, hSome, rfl, h.1, h.2⟩

/-- A planned update without errors writes its lines. -/
theorem exists_written_lines_of_plan (schema : String) (hSorted : u.fields.sorted = .ok entries)
    (hSome : ¬ (entries.isEmpty && u.removal.isNone) = true) (hPlan : u.plan = .ok p)
    (hJoins : failure? (Join.scripts p.naming p.joins) = none)
    (hTerms : (u.filter.terms p.naming).findSome? failure? = none) :
    ∃ rendered, Part.renderAll schema p.naming u.filter.parts = some rendered ∧
      rendered.flatMap (·.params) = u.filter.boundValues ∧
      written schema u.script
        = (Text.ofLines (u.lines schema p.naming p.joins entries rendered)).toList := by
  obtain ⟨rendered, hRendered, hParams, hWhere⟩ :=
    exists_rendered_of_whereScript schema none u.source.row hTerms
  refine ⟨rendered, hRendered, hParams, ?_⟩
  rw [script_eq hSorted hSome hPlan, lines]
  simp only [written_append, hWhere, Join.written_scripts_eq hJoins, Join.join_text,
    Text.ofLines_append, Text.ofLines_singleton]
  simp [commas, written_joined, written_setScripts]

/-! ### An update that compiles -/

/-- What an update compiles to: the aliases, the joins that are written, the entries by their
fields and the parts of the filter make up its lines. -/
structure LaidOut (schema : String) (u : Update) (n : Naming) (joins : List Join)
    (entries : Assignments) (rendered : List Compiled) (c : Compiled) : Prop where
  assign_eq : Naming.assign u.source.table u.source.requested u.source.joins false [] = .ok n
  writes : u.source.Writes u.Uses joins
  perm : entries.Perm u.fields
  ascending : entries.Pairwise fun a b => a.field < b.field
  items_ne_nil : items n entries u.removal ≠ []
  render_eq : Part.renderAll schema n u.filter.parts = some rendered
  sql_eq : c.sql = "\n".intercalate (u.lines schema n joins entries rendered)
  params_eq : c.params = entries.map (·.value) ++ rendered.flatMap (·.params)
  bound_eq : rendered.flatMap (·.params) = u.filter.boundValues

theorem exists_laidOut (schema : String) (h : failure? u.script = none) :
    ∃ n joins entries rendered,
      LaidOut schema u n joins entries rendered (compiled schema u.script) := by
  obtain ⟨entries, p, hSorted, hSome, hPlan, hJoins, hTerms⟩ := exists_plan_of_failure? h
  obtain ⟨hPerm, hAscending⟩ := Assignments.sorted_eq_ok_iff.mp hSorted
  obtain ⟨rendered, hRendered, hParams, hWritten⟩ :=
    exists_written_lines_of_plan schema hSorted hSome hPlan hJoins hTerms
  have hItems : items p.naming entries u.removal ≠ [] := by
    intro hNil
    obtain ⟨hEntries, hRemoval⟩ := List.append_eq_nil_iff.mp hNil
    refine hSome ((isEmpty_iff hPerm).mpr ⟨?_, by simpa using hRemoval⟩)
    exact List.nil_perm.mp (List.map_eq_nil_iff.mp hEntries ▸ hPerm)
  have hLast : ∀ line ∈ ["SET " ++ commas (items p.naming entries u.removal)]
      ++ whereLines p.naming none u.source.row u.filter rendered,
      Text.Unbroken line ∧ line ≠ "" := by
    have hSet : Text.Unbroken ("SET " ++ commas (items p.naming entries u.removal)) :=
      .append (by decide) (Text.unbroken_intercalate (by decide) unbroken_item)
    refine List.forall_mem_append.mpr ⟨List.forall_mem_singleton.mpr ⟨hSet, by simp⟩, ?_⟩
    exact unbroken_whereLines (by simp) hRendered
  refine ⟨p.naming, p.joins, entries, rendered, Source.assign_of_plan hPlan,
    Source.writes_of_plan (fun _ => u.mem_mentioned_iff) hPlan, hPerm, hAscending, hItems,
    hRendered, ?_, ?_, hParams⟩
  · have hSql : (compiled schema u.script).sql
        = Text.chomp (Text.ofLines (u.lines schema p.naming p.joins entries rendered)) := by
      rw [compiled, hWritten, Text.chomp]
    rw [hSql, lines, List.append_assoc]
    exact Text.chomp_ofLines _ (by simp) hLast
  · rw [hParams, compiled, bound_script u h, Assignments.boundValues,
      ← Assignments.sorted_eq_ok hSorted]

/-- An update fails exactly if it has a defect, with the error of the first one.  Otherwise it is
the lines of its clauses, and binds the values of its entries in the order of their fields and then
those of its conditions. -/
theorem laidOut_of_compile (schema : String) (u : Update) :
    ((∃ e, (Statement.update u).compile schema = .error e) ↔ ∃ d ∈ u.defects, ∃ e, d e) ∧
    (∀ e, (Statement.update u).compile schema = .error e → First u.defects e) ∧
    ∀ c, (Statement.update u).compile schema = .ok c →
      ∃ n joins entries rendered, LaidOut schema u n joins entries rendered c := by
  have hFinds := u.finds_defects
  have hCompile : ∀ e, (Statement.update u).compile schema = .error e ↔
      failure? u.script = some e := fun e => compile_eq_error_iff
  refine ⟨?_, fun e he => hFinds.first_of_some e ((hCompile e).mp he), fun c hc => ?_⟩
  · simp only [hCompile]
    exact hFinds.exists_iff
  · obtain ⟨hNone, hCompiled⟩ := compile_eq_ok_iff.mp hc
    rw [← hCompiled]
    exact exists_laidOut schema hNone

/-- Two columns and a path are set, under the alias that was asked for. -/
def settlement : Update :=
  Update.ofTable "invoice" |>.named "inv" |>.row 4
    |>.join ⟨.left, "client", "c", "id", "client_id", []⟩
    |>.value "status" (.text "paid") |>.add "c.paid" (.int 20) |>.jsonRemove "terms" "$.due"
    |>.filtered (Filter.any.orGroup (Filter.any.compare .lt "due" (.int 100)
      |>.condition "due" .null))

theorem laidOut_of_compile_settlement :
    (∃ c, (Statement.update settlement).compile "shop" = .ok c ∧
      c.sql = "UPDATE shop.invoice inv\nLEFT JOIN shop.client c ON c.id=inv.client_id\n"
        ++ "SET c.paid=c.paid+?, inv.status=?, inv.terms=JSON_REMOVE(inv.terms, '$.due')\n"
        ++ "WHERE inv.id=4 AND (inv.due<? OR inv.due IS NULL)" ∧
      c.params = [.int 20, .text "paid", .int 100] ∧
      ∃ n joins entries rendered, LaidOut "shop" settlement n joins entries rendered c) ∧
    First (Update.ofTable "invoice").defects (.emptyFieldList "invoice") := by
  refine ⟨?_, ?_⟩
  · have hSorted : settlement.fields.sorted = .ok settlement.fields.reverse :=
      Assignments.sorted_eq_ok_iff.mpr ⟨List.reverse_perm _, by decide⟩
    obtain ⟨p, hPlan, hNaming, hJoins⟩ : ∃ p, settlement.plan = .ok p ∧
        p.naming = .aliased "inv" [("c", "client"), ("inv", "invoice")] ∧
        p.joins = settlement.source.joins := ⟨_, rfl, rfl, rfl⟩
    have hScript := script_eq hSorted (by decide) hPlan
    rw [hNaming, hJoins] at hScript
    have hCompile : (Statement.update settlement).compile "shop"
        = .ok (compiled "shop" settlement.script) := by
      refine compile_eq_ok_iff.mpr ⟨?_, rfl⟩
      rw [Statement.script, hScript]
      rfl
    refine ⟨_, hCompile, ?_, ?_, (laidOut_of_compile "shop" settlement).2.2 _ hCompile⟩
    · rw [hScript]
      decide +kernel
    · rw [hScript]
      rfl
  · have hCompile : (Statement.update (Update.ofTable "invoice")).compile "shop"
        = .error (.emptyFieldList "invoice") := compile_eq_error_iff.mpr (by cbv)
    exact (laidOut_of_compile "shop" _).2.1 _ hCompile

end Update

end SqlStatement
