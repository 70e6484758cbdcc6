import SqlStatement.Proofs.AliasUniqueness
import SqlStatement.Proofs.OperatorLanguage

/-!
# Null tests on one field

Only the latest operator on a field is remembered.  After a null test no other one
is admitted, and once something else than a membership test in a subquery has come
in, no null test is admitted any more.  So two null tests on one field meet in a
clause only around a subquery.

* `Operator.inSubquery_mem_of_isChain`: what stands between two null tests.
* `Statement.HasFilter`: the filters anywhere in a statement.
* `Statement.inSubquery_between_of_compile`: null tests in a statement that
  compiles.
-/

namespace SqlStatement

open Script

namespace Operator

/-- What a null test admits is a membership test in a subquery, or no test. -/
theorem eq_inSubquery_or_not_test {a b : Operator} (ha : a.isNullTest) (h : Admits a b) :
    b = .inSubquery ∨ ¬ (b.isNullTest ∨ b.isSubquery) := by
  revert ha h
  cases a <;> cases b <;> decide

theorem not_test_of_admits {a b : Operator} (ha : ¬ (a.isNullTest ∨ a.isSubquery))
    (h : Admits a b) : ¬ (b.isNullTest ∨ b.isSubquery) := by
  revert ha h
  cases a <;> cases b <;> decide

/-- Behind an operator that is no test, there are no tests. -/
theorem not_test_of_isChain {a : Operator} {ops : List Operator}
    (ha : ¬ (a.isNullTest ∨ a.isSubquery)) (h : (a :: ops).IsChain Admits) :
    ∀ b ∈ ops, ¬ (b.isNullTest ∨ b.isSubquery) := by
  induction ops generalizing a with
  | nil => exact fun b hb => absurd hb List.not_mem_nil
  | cons next rest ih =>
    obtain ⟨hNext, hRest⟩ := List.isChain_cons_cons.mp h
    have hNotTest := not_test_of_admits ha hNext
    exact List.forall_mem_cons.mpr ⟨hNotTest, ih hNotTest hRest⟩

/-- Two null tests meet only around a membership test in a subquery. -/
theorem inSubquery_mem_of_isChain {before between after : List Operator} {a b : Operator}
    (h : (before ++ a :: between ++ b :: after).IsChain Admits) (ha : a.isNullTest)
    (hb : b.isNullTest) : .inSubquery ∈ between := by
  rw [List.append_assoc, List.cons_append] at h
  have hFrom : (a :: (between ++ b :: after)).IsChain Admits := h.right_of_append
  cases between with
  | nil =>
    rcases eq_inSubquery_or_not_test ha (List.isChain_cons_cons.mp hFrom).1 with rfl | hNotTest
    · cases hb
    · exact absurd (.inl hb) hNotTest
  | cons next rest =>
    obtain ⟨hNext, hRest⟩ := List.isChain_cons_cons.mp hFrom
    rcases eq_inSubquery_or_not_test ha hNext with rfl | hNotTest
    · exact List.mem_cons_self
    · have hMem : b ∈ rest ++ b :: after := List.mem_append_right _ List.mem_cons_self
      exact absurd (.inl hb) (not_test_of_isChain hNotTest hRest b hMem)

end Operator

theorem Condition.mem_operatorsOn {field : String} {op : Operator} {conditions : List Condition} :
    op ∈ operatorsOn field conditions ↔ ∃ c ∈ conditions, c.field = field ∧ c.operator = op := by
  simp [operatorsOn, and_assoc]

/-- The same of the conditions of a clause that passes, whatever other fields are in between. -/
theorem Filter.inSubquery_between_of_checkAll {before between after : List Condition}
    {a b : Condition} (h : checkAll [] (before ++ a :: between ++ b :: after) = .ok ())
    (hField : a.field = b.field) (ha : a.operator.isNullTest) (hb : b.operator.isNullTest) :
    ∃ c ∈ between, c.field = a.field ∧ c.operator = .inSubquery := by
  have hChain := Operator.accepted_iff_isChain.mp (checkAll_eq_ok_iff.mp h a.field)
  have hOperators : Condition.operatorsOn a.field (before ++ a :: between ++ b :: after)
      = Condition.operatorsOn a.field before
        ++ a.operator :: Condition.operatorsOn a.field between
        ++ b.operator :: Condition.operatorsOn a.field after := by
    simp [Condition.operatorsOn, hField]
  rw [hOperators] at hChain
  exact Condition.mem_operatorsOn.mp (Operator.inSubquery_mem_of_isChain hChain ha hb)

namespace Statement

/-- The filters anywhere in a statement: its own and those of the selects within. -/
inductive HasFilter : Statement → Filter → Prop
  | update (u : Update) : HasFilter (.update u) u.filter
  | delete (d : Delete) : HasFilter (.delete d) d.filter
  | union (u : Union) : HasFilter (.union u) u.outer.filter
  | within {s : Statement} {l : Level} : Level.Within s l → HasFilter s l.select.filter

theorem HasFilter.exists_naming {s : Statement} {f : Filter} (h : s.HasFilter f)
    (hNone : failure? s.script = none) : ∃ n, (f.terms n).findSome? failure? = none := by
  cases h with
  | update u => exact Update.exists_naming_of_failure? hNone
  | delete d => exact Delete.exists_naming_of_failure? hNone
  | union u =>
    obtain ⟨⟨p, -, -, hFilter⟩, -⟩ := Union.sound_of_failure? hNone
    exact ⟨p.naming, hFilter⟩
  | within hWithin =>
    obtain ⟨root, hSound, hIn⟩ := hWithin.exists_sound hNone
    obtain ⟨p, -, -, hFilter⟩ := Level.sound_of_isIn hSound hIn
    exact ⟨p.naming, hFilter⟩

/-- Between two null tests on one field in a clause of a statement that compiles, there is a
membership test in a subquery on that field. -/
theorem inSubquery_between_of_compile {schema : String} {s : Statement} {compiled : Compiled}
    (h : s.compile schema = .ok compiled) {f : Filter} (hFilter : s.HasFilter f)
    {before between after : List Condition} {a b : Condition}
    (hClause : before ++ a :: between ++ b :: after ∈ f.clauses) (hField : a.field = b.field)
    (ha : a.operator.isNullTest) (hb : b.operator.isNullTest) :
    ∃ c ∈ between, c.field = a.field ∧ c.operator = .inSubquery := by
  obtain ⟨hNone, -⟩ := compile_eq_ok_iff.mp h
  obtain ⟨n, hTerms⟩ := hFilter.exists_naming hNone
  have hChecked := ((Filter.findSome?_terms_eq_none_iff n f).mp hTerms).1 _ hClause
  exact Filter.inSubquery_between_of_checkAll hChecked hField ha hb

end Statement

/-- No row passes: a subquery stands between a null test and its opposite. -/
def Select.unsatisfiable : Select :=
  Select.ofTable "users"
    |>.filtered (Filter.any
      |>.condition "deleted" .null
      |>.compare .gt "age" (.int 17)
      |>.condition "deleted" (.inSubquery (Select.ofTable "restored" |>.fields [.plain "at"]))
      |>.condition "deleted" .notNull)

theorem Statement.inSubquery_between_of_compile_unsatisfiable :
    ∃ (compiled : Compiled) (before between after : List Condition) (a b : Condition),
      (select .unsatisfiable).compile "shop" = .ok compiled ∧
      before ++ a :: between ++ b :: after ∈ Select.unsatisfiable.filter.clauses ∧
      a.operator = .null ∧ b.operator = .notNull ∧
      ∃ c ∈ between, c.field = "deleted" ∧ c.operator = .inSubquery := by
  obtain ⟨compiled, hCompile⟩ : ∃ compiled, (select .unsatisfiable).compile "shop" = .ok compiled :=
    ⟨_, compile_eq_ok_iff.mpr ⟨rfl, rfl⟩⟩
  have hFilter : HasFilter (select .unsatisfiable) Select.unsatisfiable.filter :=
    .within (.select .outermost)
  have hClause : [] ++ ⟨"deleted", .null⟩ ::
      [⟨"age", .compare .gt (.int 17)⟩,
        ⟨"deleted", .inSubquery (Select.ofTable "restored" |>.fields [.plain "at"])⟩]
      ++ ⟨"deleted", .notNull⟩ :: [] ∈ Select.unsatisfiable.filter.clauses := List.mem_cons_self
  refine ⟨compiled, _, _, _, _, _, hCompile, hClause, rfl, rfl, ?_⟩
  exact inSubquery_between_of_compile hCompile hFilter hClause rfl rfl rfl

/-- A subquery lets the two null tests pass in one clause. -/
theorem Statement.not_all_null_tests_agree :
    ¬ ∀ (schema : String) (s : Statement) (compiled : Compiled), s.compile schema = .ok compiled →
      ∀ f, s.HasFilter f → ∀ clause ∈ f.clauses, ∀ a ∈ clause, ∀ b ∈ clause, a.field = b.field →
        ¬ (a.operator = .null ∧ b.operator = .notNull) := by
  intro h
  have hFilter : HasFilter (select .unsatisfiable) Select.unsatisfiable.filter :=
    .within (.select .outermost)
  have hCompile : (select .unsatisfiable).compile "shop"
      = .ok (compiled "shop" (select .unsatisfiable).script) := compile_eq_ok_iff.mpr ⟨rfl, rfl⟩
  refine h "shop" (select .unsatisfiable) _ hCompile _ hFilter _ List.mem_cons_self
    ⟨"deleted", .null⟩ ?_ ⟨"deleted", .notNull⟩ ?_ rfl ⟨rfl, rfl⟩
  · exact List.mem_cons_self
  · exact List.mem_of_getLast? rfl

end SqlStatement
