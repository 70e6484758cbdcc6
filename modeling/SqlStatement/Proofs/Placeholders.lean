import SqlStatement.Proofs.Balanced
import SqlStatement.Proofs.RuledStatements

/-!
# One placeholder for each value

As long as the identifiers of a statement are plain, its text has one question
mark outside the literals for each value it binds.  The values themselves, and
the fixed values of ON clauses, may be anything.

* `Statement.balanced_script`: plain identifiers give a balanced script.
* `Statement.placeholders_of_compile`: what this says of a compiled statement.
-/

namespace SqlStatement

open Script Text

/-- The literals of ON clauses are closed whatever they hold. -/
theorem Statement.balanced_script {schema : String} (s : Statement)
    (h : ∀ t ∈ s.texts, IsPlain t) : Balanced schema s.script := by
  refine balanced_of_meets (s.meets_script h fun v _ => ?_)
  have hLiteral := closed_literal v
  exact ⟨hLiteral.scan_eq, hLiteral.placeholders_eq⟩

/-- What is compiled from plain identifiers has a placeholder for each value, and the values are
those of the statement in their order. -/
theorem Statement.placeholders_of_compile {schema : String} {s : Statement} {c : Compiled}
    (hSchema : IsPlain schema) (hTexts : ∀ t ∈ s.texts, IsPlain t)
    (h : s.compile schema = .ok c) :
    Text.placeholders .outside c.sql.toList = c.params.length ∧ c.params = s.boundValues ∧
      ∀ table upsert rows, s = .bulkInsert (.ofRows table upsert rows) →
        c.params = rows.flatMap Assignments.boundValues := by
  obtain ⟨hNone, rfl⟩ := compile_eq_ok_iff.mp h
  refine ⟨?_, s.bound_script hNone, ?_⟩
  · rw [compiled, String.toList_ofList]
    exact (s.balanced_script hTexts hSchema).dropEndWhile.placeholders_eq
  · rintro table upsert rows rfl
    exact BulkInsert.bound_script_ofRows hNone

/-- A select with a quote, a question mark and a backslash in the literal of a join. -/
def Statement.withLiteral : Statement :=
  .select <| Select.ofTable "users"
    |>.fields [.plain "id"]
    |>.join ⟨.inner, "orders", "o", "user_id", "id", [.fixed "note" (.text "it's ?\\")]⟩
    |>.jsonSelect "items" (Select.ofTable "items"
      |>.fields [.plain "sku", .plain "price"]
      |>.filtered (Filter.any.compare .gt "price" (.uint 5))) "order_id" "o.id"
    |>.filtered (Filter.any
      |>.compare .eq "name" (.text "?")
      |>.condition "id" (.inSubquery (Select.ofTable "roles"
        |>.filtered (Filter.any.condition "kind" (.inList [.null, .text "'"])))))

theorem Statement.placeholders_of_compile_withLiteral :
    ∃ c, withLiteral.compile "shop" = .ok c ∧ Text.placeholders .outside c.sql.toList = 4 ∧
      c.params = [.uint 5, .text "?", .null, .text "'"] := by
  refine ⟨_, rfl, ?_⟩
  have h := @placeholders_of_compile "shop" withLiteral _ (by decide) (by decide) rfl
  exact ⟨h.1, h.2.1⟩

end SqlStatement
