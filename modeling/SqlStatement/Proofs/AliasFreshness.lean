import Mathlib
import SqlStatement.Proofs.Aliases
import SqlStatement.Proofs.Nesting

/-!
# Fresh aliases of JSON sub-selects

A JSON sub-select is tied to the select around it, and that one, if it is a JSON
sub-select as well, to the next.  None of them shares an alias with one further
out, whether the alias is written or stays with a pruned join: each level hands
all the aliases it knows of down to the next.

* `Level.tied`: the selects that a level is tied to.  A subquery is compiled on
  its own and tied to none.
* `Level.taken_subset_aliases`: a level knows the aliases of all these.
* `Level.correlated_of_compile`: in a select that compiles the aliases of every
  JSON sub-select are new, and its WHERE begins with the equality that ties it.
-/

namespace SqlStatement

open Script

namespace Level

/-- The selects around a level, the nearest first. -/
def enclosing : Level → List Level
  | .outermost _ => []
  | .subquery around _ | .json around _ => around :: around.enclosing

/-- The nearest of them, as far as each is a JSON sub-select of the next. -/
def tied : Level → List Level
  | .outermost _ | .subquery _ _ => []
  | .json around _ => around :: around.tied

/-- The aliases of the base table, of the joins as declared and of the JSON tables. -/
def taken (l : Level) : List String :=
  l.naming.base :: l.select.source.joins.map Join.name ++ l.select.selection.jsonTables.map (·.name)

/-- The aliases that the base table and the joins of a level must avoid. -/
def reserved (l : Level) : List String :=
  l.select.selection.jsonTables.map (·.name)
    ++ match l.correlation with | some c => c.enclosing | none => []

/-- A planned level that is tied, or that something is tied to, has an alias for every table. -/
theorem assigned_of_plan {l : Level} {p : Plan} (hPlan : l.select.plan l.correlation = .ok p)
    (hNaming : p.naming = l.naming) (hUse : l.correlation.isSome = true ∨ l.select.json ≠ []) :
    Naming.Clear l.reserved l.select.source.joins ∧
      l.naming.aliases = l.reserved ++ l.select.source.joins.map Join.name ++ [l.naming.base] ∧
      l.naming.base ≠ "" ∧ l.naming.base ∉ l.reserved ++ l.select.source.joins.map Join.name := by
  have hForce : (l.correlation.isSome || !l.select.json.isEmpty
      || !l.select.selection.jsonTables.isEmpty) = true := by
    rcases hUse with hUse | hUse <;> simp [hUse]
  obtain ⟨hClear, -, hAliased⟩ := Naming.assign_eq_ok (Source.assign_of_plan hPlan)
  obtain ⟨hAliases, hFree⟩ := hAliased (.inl hForce)
  obtain ⟨hBase, hNew⟩ := Naming.not_mem_of_free? hFree
  rw [hNaming] at hAliases hBase hNew
  exact ⟨hClear, hAliases, hBase, hNew⟩

theorem assigned {l : Level} (hNone : failure? l.script = none)
    (hUse : l.correlation.isSome = true ∨ l.select.json ≠ []) :
    Naming.Clear l.reserved l.select.source.joins ∧
      l.naming.aliases = l.reserved ++ l.select.source.joins.map Join.name ++ [l.naming.base] ∧
      l.naming.base ≠ "" ∧ l.naming.base ∉ l.reserved ++ l.select.source.joins.map Join.name := by
  obtain ⟨p, hPlan, hNaming⟩ := exists_plan hNone
  exact assigned_of_plan hPlan hNaming hUse

theorem taken_subset_of_assigned {l : Level}
    (h : l.naming.aliases = l.reserved ++ l.select.source.joins.map Join.name ++ [l.naming.base]) :
    l.taken ⊆ l.naming.aliases := by
  intro a ha
  rw [h, reserved]
  rcases List.mem_append.mp ha with ha | ha
  · rcases List.mem_cons.mp ha with rfl | ha
    · exact List.mem_append_right _ List.mem_cons_self
    · exact List.mem_append_left _ (List.mem_append_right _ ha)
  · exact List.mem_append_left _ (List.mem_append_left _ (List.mem_append_left _ ha))

/-- What a level around knows is reserved inside it. -/
theorem aliases_subset_reserved (around : Level) (sub : JsonSelect) :
    around.naming.aliases ⊆ (json around sub).reserved :=
  fun _ ha => List.mem_append_right _ ha

/-- Where all levels have a plan, one with a JSON sub-select knows its own aliases and those of all
it is tied to. -/
theorem taken_subset_aliases_of_plans {s : Select}
    (hPlans : ∀ l, IsIn s l → ∃ p, l.select.plan l.correlation = .ok p ∧ p.naming = l.naming)
    {l : Level} (hIn : IsIn s l) (hJson : l.select.json ≠ []) :
    ∀ e ∈ l :: l.tied, e.taken ⊆ l.naming.aliases := by
  have hOwn : ∀ {l : Level}, IsIn s l → l.select.json ≠ [] → l.taken ⊆ l.naming.aliases := by
    intro l hIn hJson
    obtain ⟨p, hPlan, hNaming⟩ := hPlans l hIn
    obtain ⟨-, hAliases, -, -⟩ := assigned_of_plan hPlan hNaming (.inr hJson)
    exact taken_subset_of_assigned hAliases
  induction hIn with
  | outermost => simpa [tied] using hOwn .outermost hJson
  | subquery hAround hQuery _ => simpa [tied] using hOwn (.subquery hAround hQuery) hJson
  | @json around sub hAround hSub ih =>
    intro e he
    rcases List.mem_cons.mp he with rfl | he
    · exact hOwn (.json hAround hSub) hJson
    · -- what is further out comes down through the level around
      have hKnown := ih (List.ne_nil_of_mem hSub) e he
      obtain ⟨p, hPlan, hNaming⟩ := hPlans _ (.json hAround hSub)
      obtain ⟨-, hAliases, -, -⟩ := assigned_of_plan hPlan hNaming (.inr hJson)
      intro a ha
      rw [hAliases, List.append_assoc]
      exact List.mem_append_left _ (aliases_subset_reserved around sub (hKnown ha))

theorem taken_subset_aliases {s : Select} (hNone : failure? (s.script none) = none) {l : Level}
    (hIn : IsIn s l) (hJson : l.select.json ≠ []) :
    ∀ e ∈ l :: l.tied, e.taken ⊆ l.naming.aliases :=
  taken_subset_aliases_of_plans (fun _ h => exists_plan (infix_of_isIn hNone h).1) hIn hJson

/-! ### The equality that ties a JSON sub-select -/

/-- A field of a level as its own clauses write it. -/
def column (l : Level) (field : String) : String :=
  if Field.isQualified field then field else Field.ofTable l.naming.base field

theorem qualify_eq_column {l : Level} (h : l.naming.base ≠ "") (field : String) :
    l.naming.qualify field = l.column field := by
  rw [column]
  cases hNaming : l.naming with
  | bare => simp [hNaming, Naming.base] at h
  | aliased base tables => rfl

/-- The clauses of a JSON sub-select in front of its WHERE. -/
def front (l : Level) (p : Plan) : Script :=
  l.select.selection.objectScript p.naming (JsonSelect.scripts p.naming l.select.json)
    ++ l.select.selection.fromScript p.naming l.select.source.table
    ++ Join.scripts p.naming p.joins

/-- A tied WHERE is one line, and its first term is the equality. -/
theorem exists_written_whereScript (schema : String) (n : Naming) (c : Correlation)
    (row : Option UInt64) (terms : List Script) :
    ∃ rest, (rest.head? = some '\n' ∨ " AND ".toList <+: rest) ∧
      written schema (whereScript n (some c) row terms)
        = ("WHERE " ++ n.qualify c.inner ++ "=" ++ c.outer).toList ++ rest := by
  have hTerms : whereTerms n (some c) row terms
      = Correlation.term n c :: ((row.map (Source.rowTerm n)).toList ++ terms) := by
    simp [whereTerms]
  rw [whereScript_eq, hTerms, if_neg (List.cons_ne_nil _ _)]
  cases (row.map (Source.rowTerm n)).toList ++ terms with
  | nil => exact ⟨['\n'], .inl rfl, by simp [Correlation.term]⟩
  | cons t more =>
    refine ⟨" AND ".toList ++ (written schema (joined " AND " (t :: more)) ++ ['\n']),
      .inr (List.prefix_append _ _), ?_⟩
    rw [joined_cons_cons]
    simp [Correlation.term]

theorem exists_written_of_json (schema : String) {around : Level} {sub : JsonSelect}
    (hNone : failure? (json around sub).script = none) (hBase : (json around sub).naming.base ≠ "")
    (hAround : around.naming.base ≠ "") :
    ∃ p rest, sub.query.plan (json around sub).correlation = .ok p ∧
      p.naming = (json around sub).naming ∧
      (rest.head? = some '\n' ∨ " AND ".toList <+: rest) ∧
      written schema (json around sub).script = written schema ((json around sub).front p)
        ++ ("WHERE " ++ (json around sub).column sub.inner ++ "="
          ++ around.column sub.outer).toList ++ rest := by
  obtain ⟨p, hPlan, hNaming⟩ := exists_plan hNone
  obtain ⟨rest, hRest, hWhere⟩ := exists_written_whereScript schema p.naming
    (sub.tie around.naming) sub.query.source.row (sub.query.filter.terms p.naming)
  have hInner : p.naming.qualify sub.inner = (json around sub).column sub.inner := by
    rw [hNaming]
    exact qualify_eq_column hBase _
  have hOuter : around.naming.qualify sub.outer = around.column sub.outer :=
    qualify_eq_column hAround _
  refine ⟨p, rest ++ written schema (sub.query.selection.tailScript p.naming), hPlan, hNaming,
    ?_, ?_⟩
  · rcases hRest with hRest | hRest
    · exact .inl (by rw [List.head?_append, hRest, Option.some_or])
    · exact .inr (hRest.trans (List.prefix_append _ _))
  · rw [JsonSelect.tie] at hWhere
    rw [← hInner, ← hOuter, List.append_assoc, ← List.append_assoc _ rest, ← hWhere, script,
      Select.script_eq hPlan]
    simp [front, Selection.headScript, correlation, select, JsonSelect.tie]

/-- A JSON sub-select and the aliases around it. -/
structure Correlated (schema : String) (c : Compiled) (around : Level) (sub : JsonSelect) :
    Prop where
  base_fresh : ∀ e ∈ (json around sub).tied, (json around sub).naming.base ∉ e.taken
  joins_fresh : ∀ j ∈ sub.query.source.joins, ∀ e ∈ (json around sub).tied, j.name ∉ e.taken
  base_ne_empty : (json around sub).naming.base ≠ "" ∧ around.naming.base ≠ ""
  base_ne_base : (json around sub).naming.base ≠ around.naming.base
  /-- Its text stands in parentheses, line breaks at its end dropped. -/
  equality_first : ∃ p rest,
    sub.query.plan (json around sub).correlation = .ok p ∧ p.naming = (json around sub).naming ∧
      (rest.head? = some '\n' ∨ " AND ".toList <+: rest) ∧
      '(' :: Text.dropEndWhile (· == '\n') (written schema ((json around sub).front p)
        ++ ("WHERE " ++ (json around sub).column sub.inner ++ "="
          ++ around.column sub.outer).toList ++ rest) ++ [')'] <:+: c.sql.toList

/-- In a select that compiles no JSON sub-select captures an alias of the selects it is tied to, and
each begins its WHERE with a field of its own table and one of the table around it. -/
theorem correlated_of_compile {schema : String} {s : Select} {c : Compiled} {around : Level}
    {sub : JsonSelect} (h : (Statement.select s).compile schema = .ok c)
    (hIn : IsIn s (json around sub)) : Correlated schema c around sub := by
  obtain ⟨hNone, rfl⟩ := compile_eq_ok_iff.mp h
  obtain ⟨hAround, hSub⟩ : IsIn s around ∧ sub ∈ around.select.json := by
    cases hIn with
    | json hAround hSub => exact ⟨hAround, hSub⟩
  have hJson : around.select.json ≠ [] := List.ne_nil_of_mem hSub
  obtain ⟨hAroundNone, hText⟩ := infix_of_isIn hNone hAround
  obtain ⟨hClear, -, hBase, hNew⟩ := assigned (infix_of_isIn hNone hIn).1 (.inl rfl)
  have hAroundBase := (assigned hAroundNone (.inr hJson)).2.2.1
  have hReserved : ∀ e ∈ (json around sub).tied, e.taken ⊆ (json around sub).reserved :=
    fun e he => List.Subset.trans (taken_subset_aliases hNone hAround hJson e he)
      (aliases_subset_reserved around sub)
  have hFresh : ∀ e ∈ (json around sub).tied, (json around sub).naming.base ∉ e.taken :=
    fun e he hMem => hNew (List.mem_append_left _ (hReserved e he hMem))
  refine ⟨hFresh, fun j hj e he hMem => ?_, ⟨hBase, hAroundBase⟩, fun hSame => ?_, ?_⟩
  · exact hClear.2 j hj (hReserved e he hMem)
  · exact hFresh around List.mem_cons_self (hSame ▸ List.mem_cons_self)
  · obtain ⟨p, rest, hPlan, hNaming, hRest, hWritten⟩ :=
      exists_written_of_json schema (infix_of_isIn hNone hIn).1 hBase hAroundBase
    refine ⟨p, rest, hPlan, hNaming, hRest, ?_⟩
    rw [← hWritten, compiled, String.toList_ofList]
    exact ((encloses_json hAroundNone hSub).infix_nestedText schema).trans (hText schema)

end Level

/-! ### Three levels down -/

/-- The users that bought the same. -/
def JsonSelect.buyers : JsonSelect :=
  ⟨"buyers", Select.ofTable "users" |>.fields [.plain "id", .plain "name"], "sku", "sku"⟩

def JsonSelect.lines : JsonSelect :=
  ⟨"lines", ⟨.ofTable "orders", { Selection.all with fields := [.plain "sku"] }, .any, [.buyers]⟩,
    "user_id", "id"⟩

/-- Users with their orders; a join that is not written and a JSON table take two letters. -/
def Select.withLines : Select :=
  ⟨{ Source.ofTable "users" with
      joins := [⟨.left, "options", "o", "user_id", "id", []⟩], prune := true },
    { Selection.all with
      jsonTables := [(JsonTable.named "a").fromDocument "tags" "$[*]"
        |>.column "name" "TEXT" "$"] },
    .any, [.lines]⟩

theorem Level.correlated_of_compile_withLines :
    ∃ c, (Statement.select .withLines).compile "shop" = .ok c ∧
      IsIn .withLines (json (json (outermost .withLines) .lines) .buyers) ∧
      (json (json (outermost .withLines) .lines) .buyers).naming.base = "c" ∧
      Correlated "shop" c (json (outermost .withLines) .lines) .buyers := by
  have hIn : IsIn .withLines (json (json (outermost .withLines) .lines) .buyers) :=
    .json (.json .outermost List.mem_cons_self) List.mem_cons_self
  have hPlan : Select.withLines.plan none
      = .ok ⟨.aliased "u" [("a", ""), ("o", "options"), ("u", "users")], []⟩ := by cbv
  have hNone : failure? (Select.withLines.script none) = none := by
    rw [Select.failure?_script, hPlan]
    rfl
  have hOutermost : (outermost .withLines).naming
      = .aliased "u" [("a", ""), ("o", "options"), ("u", "users")] := by
    rw [naming_eq, namingOf, select, correlation, hPlan]
  have hBase : (json (json (outermost .withLines) .lines) .buyers).naming.base = "c" := by
    rw [naming, naming, hOutermost]
    rfl
  have hCompile : (Statement.select .withLines).compile "shop"
      = .ok (compiled "shop" (Select.withLines.script none)) :=
    compile_eq_ok_iff.mpr ⟨hNone, rfl⟩
  exact ⟨_, hCompile, hIn, hBase, correlated_of_compile hCompile hIn⟩

/-! ### Subqueries -/

/-- The orders an item is in. -/
def JsonSelect.orders : JsonSelect :=
  ⟨"lines", Select.ofTable "orders" |>.fields [.plain "sku", .plain "price"], "item_id", "id"⟩

def Select.items : Select := ⟨.ofTable "items", .all, .any, [.orders]⟩

/-- Users with their orders, as far as the user is among the items. -/
def Select.amongItems : Select :=
  Select.ofTable "users"
    |>.join ⟨.inner, "orders", "o", "user_id", "id", []⟩
    |>.filtered (Filter.any.condition "id" (.inSubquery .items))

/-- Inside a subquery the aliases of the selects around the subquery are free again. -/
theorem Level.not_fresh_in_subquery :
    ∃ c, (Statement.select .amongItems).compile "shop" = .ok c ∧
      IsIn .amongItems (json (subquery (outermost .amongItems) .items) .orders) ∧
      ¬ ∀ e ∈ (json (subquery (outermost .amongItems) .items) .orders).enclosing,
        (json (subquery (outermost .amongItems) .items) .orders).naming.base ∉ e.taken := by
  have hIn : IsIn .amongItems (json (subquery (outermost .amongItems) .items) .orders) :=
    .json (.subquery .outermost (.condition List.mem_cons_self)) List.mem_cons_self
  have hOuter : outermost .amongItems
      ∈ (json (subquery (outermost .amongItems) .items) .orders).enclosing :=
    List.mem_cons_of_mem _ List.mem_cons_self
  refine ⟨_, rfl, hIn, fun h => h _ hOuter ?_⟩
  decide

end SqlStatement
