import SqlStatement.Proofs.Defects

/-!
# Why a select does not compile

`Select.defects` lists all that can be wrong with a select, with the selects
inside it at any depth, in the order in which it is looked for.  A select fails
exactly when one of these defects is there, and with the error of the first one.

* `Select.finds_defects`: by induction over selects and filters.
* `Select.first_defect_of_compile`: what this says of compiling.
-/

namespace SqlStatement

open Script

/-! ### Selects -/

/-- Whether a select uses aliases even without joins. -/
def Select.isAliased (enclosing : Option (List String)) (s : Select) : Bool :=
  enclosing.isSome || !s.json.isEmpty || !s.selection.jsonTables.isEmpty

/-- The aliases that are taken from the start: those of the JSON tables and of the selects around
this one. -/
def Select.reserved (enclosing : Option (List String)) (s : Select) : List String :=
  s.selection.jsonTables.map (·.name) ++ enclosing.getD []

/-- The aliases of a select and of those around it. -/
def Select.aliases (enclosing : Option (List String)) (s : Select) : List String :=
  let taken := s.reserved enclosing ++ s.source.joins.map Join.name
  taken ++ (Naming.free? taken s.source.table s.source.requested).toList

mutual

/-- All that can be wrong with a select, in the order in which it is looked for.  A JSON sub-select
has the aliases of the selects around it. -/
def Select.defects (enclosing : Option (List String)) : Select → List Defect
  | ⟨source, selection, filter, json⟩ =>
    let s : Select := ⟨source, selection, filter, json⟩
    source.planDefects (s.isAliased enclosing) (s.reserved enclosing) s.Uses
      ++ JsonSelect.defects (s.aliases enclosing) json
      ++ selection.jsonTables.map JsonTable.defect ++ [source.joinDefect s.Uses]
      ++ Filter.defects filter

def JsonSelect.defects (enclosing : List String) : List JsonSelect → List Defect
  | [] => []
  | ⟨name, query, _, _⟩ :: rest =>
    (fun e => query.width < 2 ∧ e = .insufficientJsonFields name query.width)
      :: Select.defects (some enclosing) query ++ JsonSelect.defects enclosing rest

/-- The clause that is wrapped, the conditions of the clause itself, its groups. -/
def Filter.defects : Filter → List Defect
  | ⟨none, conditions, groups⟩ => Condition.defects [] conditions ++ Filter.groupDefects groups
  | ⟨some wrapped, conditions, groups⟩ =>
    Filter.defects wrapped ++ Condition.defects [] conditions ++ Filter.groupDefects groups

def Condition.defects (earlier : List Condition) : List Condition → List Defect
  | [] => []
  | ⟨field, test⟩ :: rest =>
    Condition.clash earlier ⟨field, test⟩ :: Test.defects field test
      ++ Condition.defects (earlier ++ [⟨field, test⟩]) rest

def Filter.groupDefects : List Filter → List Defect
  | [] => []
  | group :: rest => Filter.alternativeDefects group ++ Filter.groupDefects rest

/-- In a group any operators go together. -/
def Filter.alternativeDefects : Filter → List Defect
  | ⟨none, conditions, groups⟩ => Condition.testDefects conditions ++ Filter.groupDefects groups
  | ⟨some wrapped, conditions, groups⟩ =>
    Filter.alternativeDefects wrapped ++ Condition.testDefects conditions
      ++ Filter.groupDefects groups

def Condition.testDefects : List Condition → List Defect
  | [] => []
  | ⟨field, test⟩ :: rest => Test.defects field test ++ Condition.testDefects rest

def Test.defects (field : String) : Test → List Defect
  | .inList values => [Test.emptyList field .inList values]
  | .notIn values => [Test.emptyList field .notIn values]
  | .inSubquery query => Select.defects none query
  | .compare _ _ | .null | .notNull | .between _ _ | .notBetween _ _ => []

end

/-! ### The first defect is found -/

theorem Filter.finds_guarded {verdict : Except CompileError Unit} {s : Script} {d : Defect}
    {rest : List Defect} (hVerdict : Finds (errorOf? verdict) [d])
    (h : Finds (failure? s) rest) : Finds (failure? (guarded verdict s)) (d :: rest) := by
  have hAppend := hVerdict.append fun _ => h
  cases verdict with
  | error e => exact hAppend
  | ok u => exact hAppend

theorem Select.finds_plan (s : Select) (correlation : Option Correlation) :
    Finds (errorOf? (s.plan correlation))
      (s.source.planDefects (s.isAliased (correlation.map (·.enclosing)))
        (s.reserved (correlation.map (·.enclosing))) s.Uses) := by
  have hPlan := s.source.finds_plan (s.isAliased (correlation.map (·.enclosing)))
    (s.reserved (correlation.map (·.enclosing))) fun _ => s.mem_mentioned_iff
  cases correlation <;> exact hPlan

/-- The joins that are written, and the aliases that a JSON sub-select has to avoid. -/
theorem Select.writes_of_plan {s : Select} {correlation : Option Correlation} {p : Plan}
    (h : s.plan correlation = .ok p) : s.source.Writes s.Uses p.joins ∧
      (s.isAliased (correlation.map (·.enclosing)) = true →
        p.naming.aliases = s.aliases (correlation.map (·.enclosing))) := by
  have hPlan : s.source.plan (s.isAliased (correlation.map (·.enclosing)))
      (s.reserved (correlation.map (·.enclosing))) s.mentioned = .ok p := by
    cases correlation <;> exact h
  refine ⟨Source.writes_of_plan (fun _ => s.mem_mentioned_iff) hPlan, fun hAliased => ?_⟩
  obtain ⟨-, -, hAliases⟩ := Naming.assign_eq_ok (Source.assign_of_plan hPlan)
  obtain ⟨hAll, hFree⟩ := hAliases (.inl hAliased)
  rw [hAll, aliases, hFree]
  rfl

mutual

theorem Select.finds_defects : ∀ (s : Select) (correlation : Option Correlation),
    Finds (failure? (s.script correlation)) (s.defects (correlation.map (·.enclosing)))
  | ⟨source, selection, filter, json⟩, correlation => by
    have hPlan := Select.finds_plan ⟨source, selection, filter, json⟩ correlation
    rw [Select.failure?_script, Select.defects]
    simp only [List.append_assoc]
    cases hp : Select.plan ⟨source, selection, filter, json⟩ correlation with
    | error e =>
      rw [hp] at hPlan
      exact hPlan.append_right _
    | ok p =>
      rw [hp] at hPlan
      obtain ⟨hWritten, hAliases⟩ := Select.writes_of_plan hp
      have hJson : Finds ((JsonSelect.scripts p.naming json).findSome? (failure? ·.body))
          (JsonSelect.defects (Select.aliases (correlation.map (·.enclosing))
            ⟨source, selection, filter, json⟩) json) := by
        by_cases hEmpty : json = []
        · rw [hEmpty]
          exact .nil
        · rw [← hAliases (by simp [Select.isAliased, hEmpty])]
          exact JsonSelect.finds_defects p.naming json
      have hTables : Finds (selection.jsonTables.findSome? fun t => failure? (t.script p.naming))
          (selection.jsonTables.map JsonTable.defect) := by
        rw [List.map_eq_flatMap]
        exact .flatMap fun t _ => t.finds_defect p.naming
      have hJoins := Source.finds_joinDefect p.naming hWritten
      have hFilter := Filter.finds_defects p.naming filter
      exact hPlan.append fun _ => hJson.append fun _ => hTables.append fun _ =>
        hJoins.append fun _ => hFilter

theorem JsonSelect.finds_defects : ∀ (n : Naming) (json : List JsonSelect),
    Finds ((JsonSelect.scripts n json).findSome? (failure? ·.body))
      (JsonSelect.defects n.aliases json)
  | _, [] => .nil
  | n, ⟨name, query, inner, outer⟩ :: rest => by
    rw [JsonSelect.scripts, findSome?_cons_or, JsonSelect.defects]
    refine .append ?_ fun _ => JsonSelect.finds_defects n rest
    have hQuery := Select.finds_defects query (some ⟨n.aliases, inner, n.qualify outer⟩)
    rw [JsonSelect.script]
    by_cases hWidth : query.width < 2
    · have hNarrow : Finds (some (.insufficientJsonFields name query.width))
          [fun e => query.width < 2 ∧ e = .insufficientJsonFields name query.width] :=
        .present ⟨hWidth, rfl⟩
      rw [if_pos hWidth]
      exact hNarrow.append_right _
    · have hWide : Finds none [fun e => query.width < 2 ∧
          e = .insufficientJsonFields name query.width] :=
        .absent fun _ he => hWidth he.1
      have hBoth := hWide.append fun _ => hQuery
      rw [if_neg hWidth]
      simpa [failure?] using hBoth

theorem Filter.finds_defects : ∀ (n : Naming) (f : Filter),
    Finds ((Filter.terms n f).findSome? failure?) f.defects
  | n, ⟨none, conditions, groups⟩ => by
    rw [Filter.terms, List.findSome?_append, Filter.defects]
    exact (Condition.finds_defects n [] conditions).append fun _ => Filter.finds_groupDefects n groups
  | n, ⟨some wrapped, conditions, groups⟩ => by
    rw [Filter.terms, List.findSome?_append, List.findSome?_append, Filter.defects]
    exact ((Filter.finds_defects n wrapped).append fun _ =>
      Condition.finds_defects n [] conditions).append fun _ => Filter.finds_groupDefects n groups

theorem Condition.finds_defects : ∀ (n : Naming) (earlier conditions : List Condition),
    Finds ((Filter.conditionTerms n (Condition.seen earlier) conditions).findSome? failure?)
      (Condition.defects earlier conditions)
  | _, _, [] => .nil
  | n, earlier, ⟨field, test⟩ :: rest => by
    rw [Filter.conditionTerms, findSome?_cons_or, Condition.defects, List.cons_append]
    have hRest := Condition.finds_defects n (earlier ++ [⟨field, test⟩]) rest
    rw [Condition.seen_concat] at hRest
    have hHead := Filter.finds_guarded (Condition.finds_clash earlier ⟨field, test⟩)
      (Test.finds_defects n field test)
    exact hHead.append fun _ => hRest

theorem Filter.finds_groupDefects : ∀ (n : Naming) (groups : List Filter),
    Finds ((Filter.groupTerms n groups).findSome? failure?) (Filter.groupDefects groups)
  | _, [] => .nil
  | n, group :: rest => by
    rw [Filter.groupTerms, List.findSome?_append, Filter.failure?_parenthesised,
      Filter.groupDefects]
    exact (Filter.finds_alternativeDefects n group).append fun _ => Filter.finds_groupDefects n rest

theorem Filter.finds_alternativeDefects : ∀ (n : Naming) (f : Filter),
    Finds ((Filter.alternatives n f).findSome? failure?) f.alternativeDefects
  | n, ⟨none, conditions, groups⟩ => by
    rw [Filter.alternatives, List.findSome?_append, Filter.alternativeDefects]
    exact (Condition.finds_testDefects n conditions).append fun _ =>
      Filter.finds_groupDefects n groups
  | n, ⟨some wrapped, conditions, groups⟩ => by
    rw [Filter.alternatives, List.findSome?_append, List.findSome?_append,
      Filter.alternativeDefects]
    exact ((Filter.finds_alternativeDefects n wrapped).append fun _ =>
      Condition.finds_testDefects n conditions).append fun _ => Filter.finds_groupDefects n groups

theorem Condition.finds_testDefects : ∀ (n : Naming) (conditions : List Condition),
    Finds ((Filter.conditionScripts n conditions).findSome? failure?)
      (Condition.testDefects conditions)
  | _, [] => .nil
  | n, ⟨field, test⟩ :: rest => by
    rw [Filter.conditionScripts, findSome?_cons_or, Condition.testDefects]
    exact (Test.finds_defects n field test).append fun _ => Condition.finds_testDefects n rest

theorem Test.finds_defects : ∀ (n : Naming) (field : String) (test : Test),
    Finds (failure? (Test.script n field test)) (Test.defects field test)
  | _, _, .compare _ _ | _, _, .null | _, _, .notNull => .nil
  | _, _, .between _ _ | _, _, .notBetween _ _ => .nil
  | _, field, .inList values => Test.finds_emptyList field .inList values
  | _, field, .notIn values => Test.finds_emptyList field .notIn values
  | n, field, .inSubquery query => by
    have hQuery := Select.finds_defects query none
    rw [Test.script, Test.defects]
    simpa [failure?] using hQuery

end

/-- A select does not compile exactly when it has a defect, and the error is that of the first. -/
theorem Select.first_defect_of_compile (schema : String) (s : Select) :
    ((∃ e, (Statement.select s).compile schema = .error e) ↔ ∃ d ∈ s.defects none, ∃ e, d e) ∧
      ∀ e, (Statement.select s).compile schema = .error e → First (s.defects none) e := by
  have hFinds := s.finds_defects none
  have hCompile : ∀ e, (Statement.select s).compile schema = .error e ↔
      failure? (s.script none) = some e := fun e => compile_eq_error_iff
  refine ⟨?_, fun e he => hFinds.first_of_some e ((hCompile e).mp he)⟩
  simp only [hCompile]
  exact hFinds.exists_iff

/-- An IN without values two levels down, in front of a JSON table without columns. -/
def Select.withDefects : Select :=
  Select.ofTable "users"
    |>.jsonSelect "items" (Select.ofTable "items"
      |>.fields [.plain "sku", .plain "price"]
      |>.filtered (Filter.any.orGroup (Filter.any.condition "kind" (.inSubquery
        (Select.ofTable "kinds" |>.filtered (Filter.any.condition "id" (.inList []))))))) "user_id" "id"
    |>.jsonTable (.named "tags")

theorem Select.first_defect_of_compile_withDefects :
    (∃ d ∈ withDefects.defects none, ∃ e, d e) ∧
      First (withDefects.defects none) (.emptyInList "id" .inList) := by
  have h := withDefects.first_defect_of_compile "shop"
  exact ⟨h.1.mp ⟨_, rfl⟩, h.2 _ rfl⟩

end SqlStatement
