import SqlStatement.Proofs.Aliases
import SqlStatement.Proofs.ClauseLines
import SqlStatement.Proofs.Nesting

/-!
# Ordering by an output alias

The entries of an ORDER BY list are written like fields of the base table, also
those that name an output alias of the select list.  Without aliases in use the
name stays bare.  With them it is put under the base table, which has no such
column.

* `Naming.qualify_eq_self_iff`: the fields that are written as they stand.
* `Level.IsAlone`: a select that needs no aliases.
* `Level.orderLine_of_compile`: the ORDER BY line of every select in a statement,
  and which of its entries name an output alias bare.
-/

namespace SqlStatement

open Script

theorem Field.ofTable_ne (name field : String) : Field.ofTable name field ≠ field := by
  intro h
  have hLength := congrArg String.length h
  rw [ofTable, String.length_append, String.length_append] at hLength
  have hDot : ".".length = 1 := rfl
  omega

theorem Naming.qualify_eq_self_iff {n : Naming} {field : String} :
    n.qualify field = field ↔ n.inUse = false ∨ Field.isQualified field = true := by
  cases n with
  | bare => simp [qualify, inUse]
  | aliased base tables =>
    rw [qualify, inUse]
    cases hField : Field.isQualified field with
    | true => simp
    | false => simp [Field.ofTable_ne]

theorem Naming.qualify_of_inUse {n : Naming} {field : String} (hUse : n.inUse = true)
    (hField : Field.isQualified field = false) : n.qualify field = Field.ofTable n.base field := by
  cases n with
  | bare => cases hUse
  | aliased base tables => rw [qualify, hField]; rfl

/-- The output aliases of the select list. -/
def Selection.outputs (s : Selection) : List String := s.fields.filterMap (·.output)

namespace OrderField

/-- The entry with its field as it stands. -/
def spelled (o : OrderField) : String := o.field ++ if o.descending then " DESC" else ""

theorem written_eq_spelled_iff {n : Naming} {o : OrderField} :
    o.written n = o.spelled ↔ n.inUse = false ∨ Field.isQualified o.field = true := by
  rw [written, spelled, ← Naming.qualify_eq_self_iff]
  exact String.append_left_inj _

end OrderField

namespace Level

/-- No joins, no JSON, and not a JSON sub-select itself. -/
structure IsAlone (l : Level) : Prop where
  correlation : l.correlation = none
  joins : l.select.source.joins = []
  json : l.select.json = []
  jsonTables : l.select.selection.jsonTables = []

/-- Aliases are in use in all selects but those. -/
theorem inUse_eq_false_iff {l : Level} (h : failure? l.script = none) :
    l.naming.inUse = false ↔ l.IsAlone := by
  obtain ⟨p, hPlan, hNaming⟩ := exists_plan h
  have hAssign := Source.assign_of_plan hPlan
  rw [← hNaming]
  constructor
  · intro hFalse
    have hNot := mt (Naming.inUse_of_assign · hAssign) (by rw [hFalse]; decide)
    simp only [Bool.or_eq_true, Option.isSome_iff_ne_none, Bool.not_eq_true',
      List.isEmpty_eq_false_iff, not_or, Classical.not_not] at hNot
    exact ⟨hNot.1.1.1, hNot.2, hNot.1.1.2, hNot.1.2⟩
  · rintro ⟨hCorrelation, hJoins, hJson, hTables⟩
    have hNot : ¬ ((l.correlation.isSome || !l.select.json.isEmpty
        || !l.select.selection.jsonTables.isEmpty) = true ∨ l.select.source.joins ≠ []) := by
      simp [hCorrelation, hJoins, hJson, hTables]
    rw [(Naming.assign_of_not_needed hNot).2, Except.ok.injEq] at hAssign
    rw [← hAssign]
    rfl

/-- The text of a level around its ORDER BY line. -/
theorem exists_written_orderLine {l : Level} (schema : String) (h : failure? l.script = none) :
    ∃ front back, written schema l.script
      = front ++ (l.select.selection.orderLine l.naming).toList ++ back := by
  obtain ⟨p, hPlan, hNaming⟩ := exists_plan h
  obtain ⟨front, hFront⟩ : ∃ front, written schema l.script
      = front ++ written schema (l.select.selection.tailScript p.naming) :=
    ⟨_, by rw [script, Select.script_eq hPlan, written_append]⟩
  rw [hFront, Selection.written_tailScript, ← hNaming]
  exact ⟨front ++ (l.select.selection.groupLine p.naming).toList,
    (l.select.selection.limitLine ++ l.select.selection.lockLine).toList, by simp⟩

/-- Every select of a statement that compiles has its ORDER BY line in the text.  An entry that
names an output alias is written bare exactly if its select uses no aliases, or if there is a point
in the name; any other is put under the base table. -/
theorem orderLine_of_compile {schema : String} {s : Select} {c : Compiled}
    (h : (Statement.select s).compile schema = .ok c) {l : Level} (hIn : IsIn s l) :
    nestedText schema l.script <:+: c.sql.toList ∧
    (∃ front back, written schema l.script = front ++ (Selection.listedLine "ORDER BY "
      (l.select.selection.order.map (OrderField.written l.naming))).toList ++ back) ∧
    ∀ o ∈ l.select.selection.order, o.field ∈ l.select.selection.outputs →
      (o.written l.naming = o.spelled ↔ l.IsAlone ∨ Field.isQualified o.field = true) ∧
      (¬ (l.IsAlone ∨ Field.isQualified o.field = true) →
        o.written l.naming
          = OrderField.spelled ⟨Field.ofTable l.naming.base o.field, o.descending⟩) := by
  obtain ⟨hNone, hCompiled⟩ := compile_eq_ok_iff.mp h
  obtain ⟨hLevel, hInfix⟩ := infix_of_isIn hNone hIn
  have hText : c.sql.toList = nestedText schema (s.script none) := by
    rw [← hCompiled, compiled, String.toList_ofList, nestedText]
    rfl
  refine ⟨hText ▸ hInfix schema, exists_written_orderLine schema hLevel, fun o _ _ => ?_⟩
  rw [← inUse_eq_false_iff hLevel]
  refine ⟨OrderField.written_eq_spelled_iff, fun hNot => ?_⟩
  rw [not_or, Bool.not_eq_false, Bool.not_eq_true] at hNot
  rw [OrderField.written, Naming.qualify_of_inUse hNot.1 hNot.2, OrderField.spelled]

/-- How many users there are of each role, the most frequent first. -/
def census : Select :=
  (Select.ofTable "users").fields [⟨"id", some "count", some "n"⟩, .plain "role"]
    |>.groupBy ["role"] |>.orderBy [.desc "n"]

theorem orderLine_of_compile_census : ∃ c,
    (Statement.select census).compile "shop" = .ok c ∧
    (Level.outermost census).naming.base = "" ∧
    Selection.listedLine "ORDER BY " [OrderField.written .bare (.desc "n")] = "ORDER BY n DESC\n" ∧
    "n" ∈ census.selection.outputs ∧
    (OrderField.desc "n").written (Level.outermost census).naming = "n DESC" := by
  obtain ⟨c, hCompile⟩ : ∃ c, (Statement.select census).compile "shop" = .ok c := ⟨_, rfl⟩
  obtain ⟨-, -, hEntries⟩ := orderLine_of_compile hCompile .outermost
  have hOutput : "n" ∈ census.selection.outputs := by decide
  have hAlone : (Level.outermost census).IsAlone := ⟨rfl, rfl, rfl, rfl⟩
  have hEntry := (hEntries (.desc "n") (by decide) hOutput).1.mpr (.inl hAlone)
  exact ⟨c, hCompile, rfl, rfl, hOutput, hEntry⟩

/-- The same with a join, which brings in the aliases. -/
def joinedCensus : Select := census.join ⟨.left, "clients", "c", "id", "client_id", []⟩

theorem not_spelled_joinedCensus : ∃ c,
    (Statement.select joinedCensus).compile "" = .ok c ∧
    c.sql = "SELECT COUNT(u.id) n, u.role\nFROM .users u\n"
      ++ "LEFT JOIN .clients c ON c.id=u.client_id\nGROUP BY u.role\nORDER BY u.n DESC" ∧
    "n" ∈ joinedCensus.selection.outputs ∧
    (OrderField.desc "n").written (Level.outermost joinedCensus).naming = "u.n DESC" ∧
    (OrderField.desc "n").spelled = "n DESC" :=
  ⟨_, rfl, by decide +kernel, by decide, rfl, rfl⟩

end Level

end SqlStatement
