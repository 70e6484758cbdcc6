import SqlStatement.Proofs.Frame
import SqlStatement.Proofs.JoinOrder

/-!
# What pruning changes

Whether joins are pruned has no say in the aliases of a statement, so all that is
written around the join lines stays as it is, and so does the line of every join
that is kept.

* `Source.plan_prune`: the plan of a pruned source next to that of the same source
  with all its joins.
* `Frame.leavesOut_of_plan`: a frame around some of the joins in place of all.
* `Statement.compile_prune`: a statement that compiles with all its joins compiles
  with the needed ones, and to the same text but for the other lines, or its joins
  go in a circle.
-/

namespace SqlStatement

open Script

/-- Under the same aliases some of the joins are kept, or there is a cycle. -/
theorem Source.plan_prune {s : Source} {joins : List Join} {force : Bool}
    {reserved mentioned : List String} {p : Plan}
    (h : (s.withJoins joins false).plan force reserved mentioned = .ok p) :
    p.joins = joins ∧
      ((∃ kept, (s.withJoins joins true).plan force reserved mentioned = .ok ⟨p.naming, kept⟩ ∧
          kept ⊆ joins ∧ (kept.map Join.name).Nodup) ∨
        ∃ aliases, (s.withJoins joins true).plan force reserved mentioned
          = .error (.circularJoinDependency aliases)) := by
  have hAssign : Naming.assign s.table s.requested joins force reserved = .ok p.naming :=
    assign_of_plan h
  obtain ⟨⟨hNodup, -⟩, hBase, -⟩ := Naming.assign_eq_ok hAssign
  refine ⟨?_, ?_⟩
  · rw [plan_withJoins_false hAssign] at h
    rw [← Except.ok.inj h]
  · rw [plan_withJoins_true hAssign]
    cases hResolve : Join.resolve joins p.naming.base (Field.qualifiers mentioned) with
    | ok kept =>
      obtain ⟨hPruned, -⟩ := Join.pruned_of_resolve hNodup hBase hResolve
      refine .inl ⟨kept, rfl, ?_, hPruned.names_nodup⟩
      intro j hj
      exact ((hPruned.mem_iff j).mp hj).mem
    | error e =>
      obtain ⟨aliases, rfl, -⟩ := Join.resolve_eq_error hNodup hBase hResolve
      exact .inr ⟨aliases, rfl⟩

/-- The line of a join as it is written under a schema and some aliases. -/
def Join.line (schema : String) (n : Naming) (j : Join) : List Char := written schema (j.script n)

/-- Between the same two texts stand the lines of all of `joins` in the one, in their order, and in
the other the lines of some of them, none twice. -/
structure Join.LeavesOut (schema : String) (joins : List Join) (all some : Compiled) : Prop where
  params_eq : some.params = all.params
  sql_eq : ∃ (n : Naming) (front back : List Char) (kept : List Join),
    kept ⊆ joins ∧ (kept.map name).Nodup ∧
      all.sql = String.ofList (Text.dropEndWhile (· == '\n')
        (front ++ joins.flatMap (line schema n) ++ back)) ∧
      some.sql = String.ofList (Text.dropEndWhile (· == '\n')
        (front ++ kept.flatMap (line schema n) ++ back))

theorem Join.written_scripts (schema : String) (n : Naming) (joins : List Join) :
    written schema (scripts n joins) = joins.flatMap (line schema n) :=
  written_flatMap schema (script n) joins

/-- Where all joins compile, so do some of them. -/
theorem Join.failure?_scripts_of_subset {n : Naming} {joins kept : List Join}
    (h : failure? (scripts n joins) = none) (hKept : kept ⊆ joins) :
    failure? (scripts n kept) = none := by
  rw [scripts, failure?_flatMap, List.findSome?_eq_none_iff] at h ⊢
  intro j hj
  exact h j (hKept hj)

/-- A frame around some of its joins compiles, since it compiles around all of them. -/
theorem Frame.leavesOut_of_plan {f : Frame} {source source' : Source} {p : Plan} {kept : List Join}
    (hRefusal : f.refusal = none) (hNone : failure? (f.script source) = none)
    (hAll : f.plan source = .ok p) (hSome : f.plan source' = .ok ⟨p.naming, kept⟩)
    (hKept : kept ⊆ p.joins) (hNodup : (kept.map Join.name).Nodup) (schema : String) :
    failure? (f.script source') = none ∧
      Join.LeavesOut schema p.joins (compiled schema (f.script source))
        (compiled schema (f.script source')) := by
  rw [script_of_plan hRefusal hAll] at hNone ⊢
  rw [script_of_plan hRefusal hSome]
  rw [failure?_append, failure?_append, Option.or_eq_none_iff, Option.or_eq_none_iff] at hNone
  obtain ⟨⟨hFront, hLines⟩, hBack⟩ := hNone
  refine ⟨?_, ⟨?_, ⟨p.naming, written schema (f.front p.naming), written schema (f.back p.naming),
    kept, hKept, hNodup, ?_, ?_⟩⟩⟩
  · have hFewer := Join.failure?_scripts_of_subset hLines hKept
    rw [failure?_append, failure?_append, hFront, hFewer, hBack]
    rfl
  · simp only [compiled, bound_append, Join.bound_scripts]
  · simp only [compiled, written_append, Join.written_scripts]
  · simp only [compiled, written_append, Join.written_scripts]

/-- Pruning the joins of a statement that compiles leaves lines of joins out, or finds a cycle. -/
theorem Statement.compile_prune {schema : String} {s : Statement} {all : Compiled}
    (h : (s.withJoins s.joins false).compile schema = .ok all) :
    (∃ some, (s.withJoins s.joins true).compile schema = .ok some ∧
      Join.LeavesOut schema s.joins all some) ∨
    ∃ aliases, (s.withJoins s.joins true).compile schema
      = .error (.circularJoinDependency aliases) := by
  cases hFrame : s.frame? with
  | none =>
    obtain ⟨hJoins, hSame⟩ := of_frame?_eq_none hFrame
    rw [hSame] at h ⊢
    obtain ⟨-, rfl⟩ := compile_eq_ok_iff.mp h
    refine .inl ⟨_, h, rfl, .bare, written schema s.script, [], [], ?_, List.nodup_nil, ?_, ?_⟩
    · exact List.nil_subset _
    · simp [compiled, hJoins]
    · simp [compiled]
  | some pair =>
    obtain ⟨source, f⟩ := pair
    have hAll := script_of_frame? (frame?_withJoins hFrame s.joins false)
    have hSome := script_of_frame? (frame?_withJoins hFrame s.joins true)
    rw [compile, hAll] at h
    rw [compile, hSome]
    obtain ⟨hNone, rfl⟩ := compile_eq_ok_iff.mp h
    obtain ⟨hRefusal, ⟨n, joins⟩, hPlan, -⟩ := Frame.exists_plan hNone
    obtain ⟨rfl, ⟨kept, hPruned, hKept, hNodup⟩ | ⟨aliases, hPruned⟩⟩ := Source.plan_prune hPlan
    · left
      obtain ⟨hNone', hLeavesOut⟩ :=
        Frame.leavesOut_of_plan hRefusal hNone hPlan hPruned hKept hNodup schema
      exact ⟨_, compile_eq_ok_iff.mpr ⟨hNone', rfl⟩, hLeavesOut⟩
    · right
      refine ⟨aliases, ?_⟩
      rw [Frame.script_of_plan_eq_error hRefusal hPruned, compile_eq]
      rfl

/-- Of four joins one is needed. -/
theorem Statement.compile_prune_chained :
    ∃ all some, ((delete .chained).withJoins Source.chained.joins false).compile "shop" = .ok all ∧
      ((delete .chained).withJoins Source.chained.joins true).compile "shop" = .ok some ∧
      Join.LeavesOut "shop" Source.chained.joins all some := by
  have hFrame : (delete .chained).frame? = some (Source.chained, Delete.chained.frame) := rfl
  obtain ⟨n, hAssign, hBase⟩ : ∃ n, Naming.assign "orders" none Source.chained.joins false []
      = .ok n ∧ n.base = "o" := exists_ok_of_toOption (by cbv)
  have hResolve : Join.resolve Source.chained.joins "o"
      (Field.qualifiers Delete.chained.filter.fields)
        = .ok [⟨.inner, "users", "u", "id", "user_id", []⟩] := by cbv
  have hAll : failure? ((delete .chained).withJoins Source.chained.joins false).script = none := by
    have hPlan : Delete.chained.frame.plan (Source.chained.withJoins Source.chained.joins false)
        = .ok ⟨n, Source.chained.joins⟩ := Source.plan_withJoins_false hAssign
    rw [script_of_frame? (frame?_withJoins hFrame _ _), Frame.script_of_plan rfl hPlan]
    rfl
  have hSome : failure? ((delete .chained).withJoins Source.chained.joins true).script = none := by
    have hPlan : Delete.chained.frame.plan (Source.chained.withJoins Source.chained.joins true)
        = .ok ⟨n, [⟨.inner, "users", "u", "id", "user_id", []⟩]⟩ := by
      rw [Frame.plan, Source.plan_withJoins_true hAssign, hBase]
      exact congrArg _ hResolve
    rw [script_of_frame? (frame?_withJoins hFrame _ _), Frame.script_of_plan rfl hPlan]
    rfl
  obtain ⟨all, hCompiled⟩ : ∃ all,
      ((delete .chained).withJoins Source.chained.joins false).compile "shop" = .ok all :=
    ⟨_, compile_eq_ok_iff.mpr ⟨hAll, rfl⟩⟩
  rcases compile_prune (s := delete .chained) hCompiled with hPruned | ⟨aliases, hError⟩
  · obtain ⟨some, hPruned, hLeavesOut⟩ := hPruned
    exact ⟨all, some, hCompiled, hPruned, hLeavesOut⟩
  · cases hSome.symm.trans (compile_eq_error_iff.mp hError)

end SqlStatement
