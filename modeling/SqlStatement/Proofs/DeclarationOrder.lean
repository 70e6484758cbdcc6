import SqlStatement.Proofs.AlikeNamings
import SqlStatement.Proofs.JoinOrder
import SqlStatement.Proofs.KeyOrder

/-!
# The order in which joins are declared

Pruned joins are resolved in the order of their aliases, which the declarations do
not change.  So nothing that is written, and no error, depends on the order in
which they were declared, as long as no two of them have one alias.

* `Join.byAlias_eq_of_perm`, `Join.resolve_eq_of_perm`: resolving permuted joins.
* `Naming.alike_assign_of_perm`: the aliases of permuted joins.
* `Statement.compile_withJoins_of_perm`: compiling with permuted joins.
-/

namespace SqlStatement

open Script

namespace Join

variable {joins joins' : List Join}

theorem pairwise_byAlias (joins : List Join) :
    (byAlias joins).Pairwise fun a b => a.name ≤ b.name :=
  KeyOrder.pairwise_mergeSort name joins

/-- There is one order by alias. -/
theorem byAlias_eq_of_perm (h : joins.Perm joins') (hNodup : (joins.map name).Nodup) :
    byAlias joins = byAlias joins' :=
  KeyOrder.mergeSort_eq_of_perm h hNodup

theorem resolve_eq_of_perm (h : joins.Perm joins') (hNodup : (joins.map name).Nodup)
    (base : String) (referenced : List String) :
    resolve joins base referenced = resolve joins' base referenced := by
  have hOrdered := byAlias_eq_of_perm h hNodup
  have hSurvivors : survivors joins base referenced = survivors joins' base referenced := by
    simp only [survivors, hOrdered]
  have hDependencies : dependencies joins base = dependencies joins' base := by
    funext j
    exact dependencies_perm h
  simp only [resolve, hSurvivors, hDependencies, h.length_eq]

end Join

theorem Naming.alike_assign_of_perm {joins joins' : List Join} {reserved : List String}
    (h : joins.Perm joins') (hClear : Clear reserved joins) (table : String)
    (requested : Option String) (force : Bool) :
    Agree Alike (assign table requested joins force reserved)
      (assign table requested joins' force reserved) := by
  have hNames : (joins.map Join.name).Perm (joins'.map Join.name) := h.map Join.name
  refine alike_assign_of_clear table requested ⟨?_, ?_⟩ hClear ⟨?_, ?_⟩ ?_
  · rintro rfl
    exact List.nil_perm.mp h
  · rintro rfl
    exact List.perm_nil.mp h
  · exact hNames.nodup_iff.mp hClear.1
  · intro j hj
    exact hClear.2 j (h.mem_iff.mpr hj)
  · intro a
    rw [List.mem_append, List.mem_append, hNames.mem_iff]

/-- Permuted joins have alike plans, and write the same join lines. -/
theorem Source.alike_plan_of_perm {joins joins' : List Join} {reserved : List String}
    (h : joins.Perm joins') (hClear : Naming.Clear reserved joins) (s : Source) (force : Bool)
    (mentioned : List String) :
    Agree Plan.Alike ((s.withJoins joins true).plan force reserved mentioned)
      ((s.withJoins joins' true).plan force reserved mentioned) := by
  rcases (Naming.alike_assign_of_perm h hClear s.table s.requested force).elim with
    ⟨e, hError, hError'⟩ | ⟨n, n', hOk, hOk', hAlike⟩
  · rw [plan_withJoins_of_error true hError, plan_withJoins_of_error true hError']
    exact .error e
  · have hResolve := Join.resolve_eq_of_perm h hClear.1 n.base (Field.qualifiers mentioned)
    rw [plan_withJoins_true hOk, plan_withJoins_true hOk', ← hAlike.base_eq, ← hResolve]
    cases Join.resolve joins n.base (Field.qualifiers mentioned) with
    | error e => exact .error e
    | ok kept => exact .ok ⟨hAlike, rfl⟩

/-- A statement whose joins are pruned compiles to the same, or fails with the same error, in
whichever order they are declared. -/
theorem Statement.compile_withJoins_of_perm {s : Statement} {joins : List Join}
    (h : joins.Perm s.joins) (hNodup : (s.joins.map Join.name).Nodup)
    (hTables : ∀ j ∈ s.joins, ∀ t ∈ s.jsonTables, j.name ≠ t.name) (schema : String) :
    (s.withJoins joins true).compile schema = (s.withJoins s.joins true).compile schema := by
  cases hFrame : s.frame? with
  | none =>
    obtain ⟨-, hSame⟩ := of_frame?_eq_none hFrame
    rw [hSame, hSame]
  | some pair =>
    obtain ⟨source, f⟩ := pair
    have hClear : Naming.Clear f.reserved s.joins := by
      refine ⟨hNodup, fun j hj hMem => ?_⟩
      rw [reserved_of_frame? hFrame] at hMem
      obtain ⟨t, ht, hName⟩ := List.mem_map.mp hMem
      exact hTables j hj t ht hName.symm
    have hClear' : Naming.Clear f.reserved joins := by
      refine ⟨(h.map Join.name).nodup_iff.mpr hClear.1, fun j hj => ?_⟩
      exact hClear.2 j (h.mem_iff.mp hj)
    have hPlan := Source.alike_plan_of_perm h hClear' source f.force f.mentioned
    have hScript := Frame.same_script (alike_frame hFrame) hPlan
    rw [compile, compile, script_of_frame? (frame?_withJoins hFrame joins true),
      script_of_frame? (frame?_withJoins hFrame s.joins true)]
    exact hScript.compile_eq schema

/-- Two joins whose ON clauses name each other. -/
def Source.circular : Source := Source.ofTable "orders"
  |>.join ⟨.inner, "users", "u", "id", "c.user_id", []⟩
  |>.join ⟨.left, "cities", "c", "id", "u.city_id", []⟩

def Delete.circular : Delete := ⟨.circular, Filter.any.condition "u.name" .null⟩

/-- A chain from either end, and a circle. -/
theorem Statement.compile_withJoins_reverse :
    ((select .chained).withJoins Source.chained.joins.reverse true).compile "shop"
        = ((select .chained).withJoins Source.chained.joins true).compile "shop" ∧
      ((delete .circular).withJoins Source.circular.joins true).compile "shop"
        = .error (.circularJoinDependency ["c", "u"]) ∧
      ((delete .circular).withJoins Source.circular.joins.reverse true).compile "shop"
        = .error (.circularJoinDependency ["c", "u"]) := by
  have hCircular : ((delete .circular).withJoins Source.circular.joins true).compile "shop"
      = .error (.circularJoinDependency ["c", "u"]) := by
    have hFrame : (delete .circular).frame? = some (Source.circular, Delete.circular.frame) := rfl
    obtain ⟨n, hAssign, hBase⟩ : ∃ n, Naming.assign "orders" none Source.circular.joins false []
        = .ok n ∧ n.base = "o" := exists_ok_of_toOption (by cbv)
    have hResolve : Join.resolve Source.circular.joins "o"
        (Field.qualifiers Delete.circular.filter.fields)
          = .error (.circularJoinDependency ["c", "u"]) := by cbv
    have hPlan : Delete.circular.frame.plan (Source.circular.withJoins Source.circular.joins true)
        = .error (.circularJoinDependency ["c", "u"]) := by
      rw [Frame.plan, Source.plan_withJoins_true hAssign, hBase]
      exact congrArg _ hResolve
    rw [compile, script_of_frame? (frame?_withJoins hFrame _ _),
      Frame.script_of_plan_eq_error rfl hPlan]
    rfl
  refine ⟨?_, hCircular, ?_⟩
  · exact compile_withJoins_of_perm (s := select .chained) (List.reverse_perm _) (by decide)
      (fun _ _ _ ht => absurd ht List.not_mem_nil) "shop"
  · exact (compile_withJoins_of_perm (s := delete .circular) (List.reverse_perm _) (by decide)
      (fun _ _ _ ht => absurd ht List.not_mem_nil) "shop").trans hCircular

end SqlStatement
