import SqlStatement.Proofs.Nesting

/-!
# Statements around their join lines

A statement that can have joins is planned and then written: what stands in
front of the join lines, these lines, and what follows them.  The joins, and
whether they are pruned, come in through the plan alone.

* `Frame`: a statement without its joins.
* `Frame.script`: the frame with the joins of a source.
* `Select.script_eq_frame` and those of the other statements.
* `Statement.withJoins`: a statement with other joins, and
  `Statement.frame?_withJoins`: it has the same frame.
-/

namespace SqlStatement

open Script

/-- What a statement is apart from its joins. -/
structure Frame where
  /-- An error that comes before any plan. -/
  refusal : Option CompileError
  /-- Whether there are aliases even without joins. -/
  force : Bool
  reserved : List String
  mentioned : List String
  front : Naming → Script
  back : Naming → Script

namespace Frame

def plan (f : Frame) (s : Source) : Except CompileError Plan :=
  s.plan f.force f.reserved f.mentioned

def script (f : Frame) (s : Source) : Script :=
  match f.refusal with
  | some e => [.fail e]
  | none => match f.plan s with
    | .error e => [.fail e]
    | .ok p => f.front p.naming ++ Join.scripts p.naming p.joins ++ f.back p.naming

theorem script_of_plan {f : Frame} {s : Source} {p : Plan} (hRefusal : f.refusal = none)
    (hPlan : f.plan s = .ok p) :
    f.script s = f.front p.naming ++ Join.scripts p.naming p.joins ++ f.back p.naming := by
  rw [script, hRefusal, hPlan]

theorem script_of_plan_eq_error {f : Frame} {s : Source} {e : CompileError}
    (hRefusal : f.refusal = none) (hPlan : f.plan s = .error e) : f.script s = [.fail e] := by
  rw [script, hRefusal, hPlan]

/-- A frame without errors is not refused and has a plan, and no part of it has an error. -/
theorem exists_plan {f : Frame} {s : Source} (h : failure? (f.script s) = none) :
    f.refusal = none ∧ ∃ p, f.plan s = .ok p ∧ failure? (f.front p.naming) = none ∧
      failure? (Join.scripts p.naming p.joins) = none ∧ failure? (f.back p.naming) = none := by
  cases hRefusal : f.refusal with
  | some e =>
    rw [script, hRefusal] at h
    cases h
  | none =>
    cases hPlan : f.plan s with
    | error e =>
      rw [script_of_plan_eq_error hRefusal hPlan] at h
      cases h
    | ok p =>
      rw [script_of_plan hRefusal hPlan, failure?_append, failure?_append,
        Option.or_eq_none_iff, Option.or_eq_none_iff] at h
      exact ⟨rfl, p, rfl, h.1.1, h.1.2, h.2⟩

end Frame

/-! ### The frames of statements -/

def Select.frame (correlation : Option Correlation) (s : Select) : Frame where
  refusal := none
  force := correlation.isSome || !s.json.isEmpty || !s.selection.jsonTables.isEmpty
  reserved := s.selection.jsonTables.map (·.name)
    ++ match correlation with | some c => c.enclosing | none => []
  mentioned := s.mentioned
  front := fun n => [.aliases n]
    ++ s.selection.headScript correlation.isSome n (JsonSelect.scripts n s.json)
    ++ s.selection.fromScript n s.source.table
  back := fun n => whereScript n correlation s.source.row (s.filter.terms n)
    ++ s.selection.tailScript n

def Update.frame (u : Update) : Frame where
  refusal := match u.fields.sorted with
    | .error e => some e
    | .ok entries =>
      if entries.isEmpty && u.removal.isNone then some (.emptyFieldList u.source.table) else none
  force := false
  reserved := []
  mentioned := u.mentioned
  front := fun n => [.aliases n, .text "UPDATE ", .table u.source.table, .text (n.suffix ++ "\n")]
  back := fun n => .text "SET " :: joined ", " (setScripts n u.fields.byField u.removal)
    ++ [.text "\n"] ++ whereScript n none u.source.row (u.filter.terms n)

def Delete.frame (d : Delete) : Frame where
  refusal := none
  force := false
  reserved := []
  mentioned := d.filter.fields
  front := fun n => [.aliases n, .text ("DELETE " ++ victim n ++ "FROM "), .table d.source.table,
    .text (n.suffix ++ "\n")]
  back := fun n => whereScript n none d.source.row (d.filter.terms n)

/-- The members stand where the outer select has its table. -/
def Union.frame (u : Union) : Frame :=
  { u.outer.frame none with
    refusal := if u.members.length < 2 then some (.unionMemberCount u.members.length) else none
    front := fun n =>
      .aliases n :: u.outer.selection.listScript n (JsonSelect.scripts n u.outer.json)
        ++ .text "FROM (\n" :: joined u.separator (u.members.map memberScript)
        ++ [.text (") " ++ name n ++ "\n")] }

theorem Select.script_eq_frame (s : Select) (correlation : Option Correlation) :
    s.script correlation = (s.frame correlation).script s.source := by
  cases hPlan : (s.frame correlation).plan s.source with
  | error e =>
    rw [Frame.script_of_plan_eq_error rfl hPlan]
    obtain ⟨source, selection, filter, json⟩ := s
    rw [script, show plan _ _ = _ from hPlan]
  | ok p =>
    rw [Frame.script_of_plan rfl hPlan, script_eq hPlan]
    simp only [frame, List.append_assoc]

theorem Update.script_eq_frame (u : Update) : u.script = u.frame.script u.source := by
  cases hSorted : u.fields.sorted with
  | error e =>
    have hRefusal : u.frame.refusal = some e := by simp only [frame, hSorted]
    rw [script, hSorted, Frame.script, hRefusal]
  | ok entries =>
    obtain rfl := Assignments.sorted_eq_ok hSorted
    rw [script, hSorted]
    by_cases hEmpty : (u.fields.byField.isEmpty && u.removal.isNone) = true
    · have hRefusal : u.frame.refusal = some (.emptyFieldList u.source.table) := by
        simp only [frame, hSorted, if_pos hEmpty]
      simp only [if_pos hEmpty, Frame.script, hRefusal]
    · have hRefusal : u.frame.refusal = none := by simp only [frame, hSorted, if_neg hEmpty]
      simp only [if_neg hEmpty]
      cases hPlan : u.frame.plan u.source with
      | error e =>
        rw [Frame.script_of_plan_eq_error hRefusal hPlan, show u.plan = _ from hPlan]
      | ok p =>
        rw [Frame.script_of_plan hRefusal hPlan, show u.plan = _ from hPlan]
        simp only [frame, List.append_assoc, List.cons_append]

theorem Delete.script_eq_frame (d : Delete) : d.script = d.frame.script d.source := by
  cases hPlan : d.frame.plan d.source with
  | error e => rw [Frame.script_of_plan_eq_error rfl hPlan, script, show d.plan = _ from hPlan]
  | ok p => rw [Frame.script_of_plan rfl hPlan, script, show d.plan = _ from hPlan, frame]

theorem Union.script_eq_frame (u : Union) : u.script = u.frame.script u.outer.source := by
  by_cases hCount : u.members.length < 2
  · rw [script, Frame.script, frame]
    simp only [hCount, if_true]
  · have hRefusal : u.frame.refusal = none := if_neg hCount
    rw [script, if_neg hCount]
    cases hPlan : u.frame.plan u.outer.source with
    | error e =>
      rw [Frame.script_of_plan_eq_error hRefusal hPlan, show u.outer.plan none = _ from hPlan]
    | ok p =>
      rw [Frame.script_of_plan hRefusal hPlan, show u.outer.plan none = _ from hPlan, frame]
      simp only [Select.frame, List.append_assoc, List.cons_append]

/-! ### Other joins -/

namespace Source

variable {s : Source} {joins : List Join} {force : Bool} {reserved mentioned : List String}

/-- The source with these joins in place of its own, all of them written or only the needed ones. -/
def withJoins (s : Source) (joins : List Join) (prune : Bool) : Source := { s with joins, prune }

theorem plan_withJoins_of_error {e : CompileError} (prune : Bool)
    (h : Naming.assign s.table s.requested joins force reserved = .error e) :
    (s.withJoins joins prune).plan force reserved mentioned = .error e := by
  simp only [plan, withJoins, h]

theorem plan_withJoins_false {n : Naming}
    (h : Naming.assign s.table s.requested joins force reserved = .ok n) :
    (s.withJoins joins false).plan force reserved mentioned = .ok ⟨n, joins⟩ := by
  simp only [plan, withJoins, h, Bool.false_and]
  rfl

/-- Nothing is lost by resolving no joins at all. -/
theorem plan_withJoins_true {n : Naming}
    (h : Naming.assign s.table s.requested joins force reserved = .ok n) :
    (s.withJoins joins true).plan force reserved mentioned
      = (Join.resolve joins n.base (Field.qualifiers mentioned)).map (Plan.mk n) := by
  simp only [plan, withJoins, h, Bool.true_and]
  cases joins with
  | nil =>
    have hNil : Join.resolve [] n.base (Field.qualifiers mentioned) = .ok [] := by
      simp [Join.resolve, Join.survivors, Join.byAlias, Nat.repeat, Join.relax, Join.round]
    rw [hNil]
    rfl
  | cons j rest =>
    rw [List.isEmpty_cons, Bool.not_false, if_pos rfl]
    cases Join.resolve (j :: rest) n.base (Field.qualifiers mentioned) <;> rfl

end Source

namespace Statement

/-- The source whose joins a statement writes, and the rest of it. -/
def frame? : Statement → Option (Source × Frame)
  | .select s => some (s.source, s.frame none)
  | .update u => some (u.source, u.frame)
  | .delete d => some (d.source, d.frame)
  | .union u => some (u.outer.source, u.frame)
  | .insert _ | .bulkInsert _ => none

theorem script_of_frame? {s : Statement} {source : Source} {f : Frame}
    (h : s.frame? = some (source, f)) : s.script = f.script source := by
  cases s with
  | select s => cases h; exact s.script_eq_frame none
  | update u => cases h; exact u.script_eq_frame
  | delete d => cases h; exact d.script_eq_frame
  | union u => cases h; exact u.script_eq_frame
  | insert i => cases h
  | bulkInsert b => cases h

/-- The joins as they are declared. -/
def joins : Statement → List Join
  | .select s => s.source.joins
  | .update u => u.source.joins
  | .delete d => d.source.joins
  | .union u => u.outer.source.joins
  | .insert _ | .bulkInsert _ => []

def withJoins (joins : List Join) (prune : Bool) : Statement → Statement
  | .select s => .select { s with source := s.source.withJoins joins prune }
  | .update u => .update { u with source := u.source.withJoins joins prune }
  | .delete d => .delete { d with source := d.source.withJoins joins prune }
  | .union u =>
    .union { u with outer := { u.outer with source := u.outer.source.withJoins joins prune } }
  | .insert i => .insert i
  | .bulkInsert b => .bulkInsert b

theorem frame?_withJoins {s : Statement} {source : Source} {f : Frame}
    (h : s.frame? = some (source, f)) (joins : List Join) (prune : Bool) :
    (s.withJoins joins prune).frame? = some (source.withJoins joins prune, f) := by
  cases s with
  | select s => cases h; rfl
  | update u => cases h; rfl
  | delete d => cases h; rfl
  | union u => cases h; rfl
  | insert i => cases h
  | bulkInsert b => cases h

/-- The JSON tables that a statement reads. -/
def jsonTables : Statement → List JsonTable
  | .select s => s.selection.jsonTables
  | .union u => u.outer.selection.jsonTables
  | .update _ | .delete _ | .insert _ | .bulkInsert _ => []

theorem reserved_of_frame? {s : Statement} {source : Source} {f : Frame}
    (h : s.frame? = some (source, f)) : f.reserved = s.jsonTables.map (·.name) := by
  cases s with
  | select s => cases h; exact List.append_nil _
  | update u => cases h; rfl
  | delete d => cases h; rfl
  | union u => cases h; exact List.append_nil _
  | insert i => cases h
  | bulkInsert b => cases h

/-- Statements that insert have no joins. -/
theorem of_frame?_eq_none {s : Statement} (h : s.frame? = none) :
    s.joins = [] ∧ ∀ joins prune, s.withJoins joins prune = s := by
  cases s with
  | insert i => exact ⟨rfl, fun _ _ => rfl⟩
  | bulkInsert b => exact ⟨rfl, fun _ _ => rfl⟩
  | select s => cases h
  | update u => cases h
  | delete d => cases h
  | union u => cases h

end Statement

end SqlStatement
