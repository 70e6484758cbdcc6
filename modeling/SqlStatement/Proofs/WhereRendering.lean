import SqlStatement.Proofs.ClauseLines
import SqlStatement.Proofs.FilterMeaning

/-!
# The text of a WHERE line

A filter is laid out as a tree of conditions and groups, and the tree is written
from its leaves: a group is its alternatives with OR between them, in parentheses,
and the line is the fixed equalities and the parts of the filter with AND between
them.

* `Filter.parts`: the tree.  Groups in which no condition lies are left out, so
  that no group is without alternatives (`Filter.filled_parts`), and its leaves are
  the conditions of the filter, each of them once (`Filter.conditions_parts`).
* `Condition.render`, `Part.render`: the text of a part with its values.  A
  membership test holds the compiled subquery.
* `Filter.rendered_of_runIn`: what a run of the WHERE line appends.
-/

namespace SqlStatement

open Script

/-! ### The tree -/

/-- What stands between two connectives. -/
inductive Part
  | condition (c : Condition)
  | group (alternatives : List Part)

mutual

/-- The parts of a filter: those of the clause it wraps, its own conditions, and a group for each of
its groups with a condition in it. -/
def Filter.parts : Filter → List Part
  | ⟨none, conditions, groups⟩ => conditions.map .condition ++ Filter.groupParts groups
  | ⟨some wrapped, conditions, groups⟩ =>
    Filter.parts wrapped ++ conditions.map .condition ++ Filter.groupParts groups

def Filter.groupParts : List Filter → List Part
  | [] => []
  | group :: rest =>
    (if group.isEmpty then [] else [.group (Filter.parts group)]) ++ Filter.groupParts rest

end

mutual

def Part.conditions : Part → List Condition
  | .condition c => [c]
  | .group alternatives => Part.allConditions alternatives

def Part.allConditions : List Part → List Condition
  | [] => []
  | p :: rest => Part.conditions p ++ Part.allConditions rest

end

/-- No group is without alternatives, however deep it lies. -/
inductive Part.Filled : Part → Prop
  | condition (c : Condition) : Filled (.condition c)
  | group {alternatives : List Part} : alternatives ≠ [] → (∀ p ∈ alternatives, p.Filled) →
      Filled (.group alternatives)

theorem Part.allConditions_append (a b : List Part) :
    allConditions (a ++ b) = allConditions a ++ allConditions b := by
  induction a with
  | nil => rfl
  | cons p rest ih => rw [List.cons_append, allConditions, allConditions, ih, List.append_assoc]

theorem Part.allConditions_map (conditions : List Condition) :
    allConditions (conditions.map .condition) = conditions := by
  induction conditions with
  | nil => rfl
  | cons c rest ih => rw [List.map_cons, allConditions, Part.conditions, ih, List.singleton_append]

mutual

theorem Filter.isEmpty_iff : ∀ f : Filter, f.isEmpty = true ↔ f.occurrences = []
  | ⟨none, conditions, groups⟩ => by
    rw [Filter.isEmpty, Filter.occurrences, Bool.and_eq_true, List.isEmpty_iff,
      Filter.allEmpty_iff groups, List.append_eq_nil_iff]
  | ⟨some wrapped, conditions, groups⟩ => by
    rw [Filter.isEmpty, Filter.occurrences, Bool.and_eq_true, Bool.and_eq_true, List.isEmpty_iff,
      Filter.isEmpty_iff wrapped, Filter.allEmpty_iff groups, List.append_eq_nil_iff,
      List.append_eq_nil_iff, and_comm (a := conditions = [])]

theorem Filter.allEmpty_iff : ∀ groups : List Filter,
    Filter.allEmpty groups = true ↔ Filter.groupOccurrences groups = []
  | [] => by simp [Filter.allEmpty, Filter.groupOccurrences]
  | group :: rest => by
    rw [Filter.allEmpty, Filter.groupOccurrences, Bool.and_eq_true, Filter.isEmpty_iff group,
      Filter.allEmpty_iff rest, List.append_eq_nil_iff]

end

mutual

/-- The leaves are the conditions of the filter, from left to right. -/
theorem Filter.conditions_parts : ∀ f : Filter, Part.allConditions f.parts = f.occurrences
  | ⟨none, conditions, groups⟩ => by
    rw [Filter.parts, Filter.occurrences, Part.allConditions_append, Part.allConditions_map,
      Filter.conditions_groupParts groups]
  | ⟨some wrapped, conditions, groups⟩ => by
    rw [Filter.parts, Filter.occurrences, Part.allConditions_append, Part.allConditions_append,
      Part.allConditions_map, Filter.conditions_parts wrapped,
      Filter.conditions_groupParts groups]

theorem Filter.conditions_groupParts : ∀ groups : List Filter,
    Part.allConditions (Filter.groupParts groups) = Filter.groupOccurrences groups
  | [] => rfl
  | group :: rest => by
    rw [Filter.groupParts, Filter.groupOccurrences, Part.allConditions_append,
      Filter.conditions_groupParts rest]
    split
    · next hEmpty => rw [(Filter.isEmpty_iff group).mp hEmpty, Part.allConditions]
    · rw [Part.allConditions, Part.conditions, Filter.conditions_parts group, Part.allConditions,
        List.append_nil]

end

theorem Filter.parts_ne_nil {f : Filter} (h : ¬ f.isEmpty = true) : f.parts ≠ [] := by
  intro hParts
  have hOccurrences := f.conditions_parts
  rw [hParts] at hOccurrences
  exact h (f.isEmpty_iff.mpr hOccurrences.symm)

mutual

theorem Filter.filled_parts : ∀ f : Filter, ∀ p ∈ f.parts, p.Filled
  | ⟨none, conditions, groups⟩ => by
    rw [Filter.parts, List.forall_mem_append, List.forall_mem_map]
    exact ⟨fun c _ => .condition c, Filter.filled_groupParts groups⟩
  | ⟨some wrapped, conditions, groups⟩ => by
    rw [Filter.parts, List.forall_mem_append, List.forall_mem_append, List.forall_mem_map]
    exact ⟨⟨Filter.filled_parts wrapped, fun c _ => .condition c⟩,
      Filter.filled_groupParts groups⟩

theorem Filter.filled_groupParts : ∀ groups : List Filter,
    ∀ p ∈ Filter.groupParts groups, p.Filled
  | [] => by simp [Filter.groupParts]
  | group :: rest => by
    rw [Filter.groupParts, List.forall_mem_append]
    refine ⟨?_, Filter.filled_groupParts rest⟩
    split
    · simp
    · next hSome =>
      rw [List.forall_mem_singleton]
      exact .group (Filter.parts_ne_nil hSome) (Filter.filled_parts group)

end

theorem Part.Filled.conditions_ne_nil {p : Part} (h : p.Filled) : p.conditions ≠ [] := by
  induction h with
  | condition c => exact List.cons_ne_nil c []
  | @group alternatives hSome _ ih =>
    obtain ⟨a, rest, rfl⟩ := List.exists_cons_of_ne_nil hSome
    rw [Part.conditions, Part.allConditions]
    exact List.append_ne_nil_of_left_ne_nil (ih a List.mem_cons_self) _

theorem Filter.parts_eq_nil {f : Filter} (h : f.isEmpty = true) : f.parts = [] := by
  have hOccurrences := f.conditions_parts
  rw [f.isEmpty_iff.mp h] at hOccurrences
  cases hParts : f.parts with
  | nil => rfl
  | cons p rest =>
    have hFilled := f.filled_parts p (hParts ▸ List.mem_cons_self)
    rw [hParts, Part.allConditions] at hOccurrences
    exact absurd (List.append_eq_nil_iff.mp hOccurrences).1 hFilled.conditions_ne_nil

/-! ### Its text -/

/-- Texts one after the other with a separator between them, and the values of all. -/
def Compiled.joined (separator : String) (l : List Compiled) : Compiled :=
  ⟨separator.intercalate (l.map (·.sql)), l.flatMap (·.params)⟩

/-- What follows the operator, nothing if the operand cannot be written. -/
def Test.operand (schema : String) : Test → Option Compiled
  | .compare _ v => some ⟨"?", [v]⟩
  | .null | .notNull => some ⟨"", []⟩
  | .between low high | .notBetween low high => some ⟨" ? AND ?", [low, high]⟩
  | .inList values | .notIn values =>
    if values.isEmpty then none
    else some ⟨" (" ++ ",".intercalate (values.map fun _ => "?") ++ ")", values⟩
  | .inSubquery query =>
    match (Statement.select query).compile schema with
    | .error _ => none
    | .ok nested => some ⟨" (" ++ nested.sql ++ ")", nested.params⟩

def Condition.render (schema : String) (n : Naming) (c : Condition) : Option Compiled :=
  (c.test.operand schema).map fun operand =>
    ⟨n.qualify c.field ++ c.operator.fragment ++ operand.sql, operand.params⟩

mutual

def Part.render (schema : String) (n : Naming) : Part → Option Compiled
  | .condition c => c.render schema n
  | .group alternatives => (Part.renderAll schema n alternatives).map fun rendered =>
      ⟨"(" ++ (Compiled.joined " OR " rendered).sql ++ ")", (Compiled.joined " OR " rendered).params⟩

def Part.renderAll (schema : String) (n : Naming) : List Part → Option (List Compiled)
  | [] => some []
  | p :: rest => (Part.render schema n p).bind fun first =>
      (Part.renderAll schema n rest).map (first :: ·)

end

/-- The two fixed equalities of a WHERE line. -/
def fixedTerms (n : Naming) (correlation : Option Correlation) (row : Option UInt64) :
    List Compiled :=
  (correlation.map fun c => ⟨n.qualify c.inner ++ "=" ++ c.outer, []⟩).toList
    ++ (row.map fun id => ⟨n.qualify "id" ++ "=" ++ id.toNat.repr, []⟩).toList

/-- The line with these terms, or none. -/
def Compiled.whereLine (terms : List Compiled) : Compiled :=
  if terms.isEmpty then ⟨"", []⟩
  else ⟨"WHERE " ++ (joined " AND " terms).sql ++ "\n", (joined " AND " terms).params⟩

/-! ### What the scripts append -/

/-- What a script without errors appends. -/
def Script.fragment (schema : String) (s : Script) : Compiled :=
  ⟨String.ofList (written schema s), bound s⟩

section

variable (schema : String) {n : Naming}

theorem fragment_joined (separator : String) (scripts : List Script) :
    fragment schema (Script.joined separator scripts)
      = Compiled.joined separator (scripts.map (fragment schema)) := by
  rw [fragment, Compiled.joined, written_joined, bound_joined]
  refine Compiled.mk.injEq .. ▸ ⟨?_, ?_⟩
  · apply String.toList_injective
    simp [fragment, Function.comp_def]
  · simp [fragment, List.flatMap_map]

theorem fragment_append (a b : Script) : fragment schema (a ++ b)
    = ⟨(fragment schema a).sql ++ (fragment schema b).sql,
      (fragment schema a).params ++ (fragment schema b).params⟩ := by
  rw [fragment, written_append, bound_append, String.ofList_append]
  rfl

theorem fragment_text (text : String) (s : Script) : fragment schema (.text text :: s)
    = ⟨text ++ (fragment schema s).sql, (fragment schema s).params⟩ := by
  rw [fragment, written, pieceWritten, bound, pieceBound, String.ofList_append,
    String.ofList_toList, List.nil_append]
  rfl

theorem fragment_singleton (text : String) : fragment schema [.text text] = ⟨text, []⟩ := by
  rw [fragment_text]
  simp [fragment]

theorem fragment_placeholders (values : List Value) : fragment schema (placeholders values)
    = ⟨",".intercalate (values.map fun _ => "?"), values⟩ := by
  rw [placeholders, fragment_joined, Compiled.joined]
  simp [fragment, Function.comp_def, List.flatMap_map]

theorem Filter.fragment_listOperand {field : String} {op : Operator} {values : List Value}
    (h : failure? (listOperand field op values) = none) :
    values.isEmpty = false ∧ fragment schema (listOperand field op values)
      = ⟨" (" ++ ",".intercalate (values.map fun _ => "?") ++ ")", values⟩ := by
  cases values with
  | nil => cases h
  | cons v rest =>
    refine ⟨rfl, ?_⟩
    show fragment schema (.text " (" :: (placeholders (v :: rest) ++ [.text ")"])) = _
    rw [fragment_text, fragment_append, fragment_placeholders]
    simp [fragment, String.append_assoc]

theorem Test.render_script {field : String} : ∀ {test : Test},
    failure? (test.script n field) = none →
    Condition.render schema n ⟨field, test⟩ = some (fragment schema (test.script n field))
  | .compare c v, _ | .null, _ | .notNull, _ | .between _ _, _ | .notBetween _ _, _ => by
    simp [Condition.render, Condition.operator, Test.operator, Test.operand, Test.script, fragment,
      Filter.rangeOperand, String.append_assoc]
  | .inList values, h | .notIn values, h => by
    rw [Test.script, failure?, pieceFailure?, Option.none_or] at h
    obtain ⟨hValues, hOperand⟩ := Filter.fragment_listOperand schema h
    rw [Test.script, fragment_text, hOperand, Condition.render, Test.operand, hValues,
      if_neg Bool.false_ne_true]
    rfl
  | .inSubquery query, h => by
    have hQuery : failure? (query.script none) = none := by
      rw [Test.script] at h
      simpa using h
    have hCompile : (Statement.select query).compile schema
        = .ok (compiled schema (query.script none)) := by
      rw [Statement.compile, Statement.script, compile_eq, hQuery]
    rw [Condition.render, Test.operand, hCompile, Test.script, fragment_text]
    simp [fragment, compiled, Condition.operator, Test.operator, String.append_assoc]

/-! ### What the terms append -/

theorem Part.renderAll_append {a b : List Part} {x y : List Compiled}
    (ha : renderAll schema n a = some x) (hb : renderAll schema n b = some y) :
    renderAll schema n (a ++ b) = some (x ++ y) := by
  induction a generalizing x with
  | nil =>
    rw [renderAll] at ha
    obtain rfl := Option.some.inj ha
    exact hb
  | cons p rest ih =>
    rw [renderAll, Option.bind_eq_some_iff] at ha
    obtain ⟨first, hFirst, hRest⟩ := ha
    obtain ⟨others, hOthers, rfl⟩ := Option.map_eq_some_iff.mp hRest
    rw [List.cons_append, renderAll, hFirst, ih hOthers]
    rfl

theorem Part.length_of_renderAll {a : List Part} {x : List Compiled}
    (h : renderAll schema n a = some x) : x.length = a.length := by
  induction a generalizing x with
  | nil =>
    rw [renderAll] at h
    obtain rfl := Option.some.inj h
    rfl
  | cons p rest ih =>
    rw [renderAll, Option.bind_eq_some_iff] at h
    obtain ⟨first, -, hRest⟩ := h
    obtain ⟨others, hOthers, rfl⟩ := Option.map_eq_some_iff.mp hRest
    rw [List.length_cons, List.length_cons, ih hOthers]

theorem Filter.renderAll_conditions : ∀ {conditions : List Condition},
    (conditionScripts n conditions).findSome? failure? = none →
    Part.renderAll schema n (conditions.map .condition)
      = some ((conditionScripts n conditions).map (fragment schema))
  | [], _ => rfl
  | ⟨field, test⟩ :: rest, h => by
    rw [conditionScripts, findSome?_cons_or, Option.or_eq_none_iff] at h
    rw [List.map_cons, Part.renderAll, Part.render, Test.render_script schema h.1,
      Filter.renderAll_conditions h.2]
    rfl

/-- A group is in parentheses if there is something in it. -/
theorem Filter.renderAll_group {group : Filter} {scripts : List Script}
    (h : Part.renderAll schema n group.parts = some (scripts.map (fragment schema))) :
    Part.renderAll schema n (if group.isEmpty then [] else [.group group.parts])
      = some ((parenthesised scripts).map (fragment schema)) := by
  have hLength := Part.length_of_renderAll schema h
  rw [List.length_map] at hLength
  cases scripts with
  | nil =>
    have hEmpty : group.isEmpty = true := by
      by_contra hSome
      exact parts_ne_nil hSome (List.length_eq_zero_iff.mp hLength.symm)
    rw [hEmpty]
    rfl
  | cons s rest =>
    have hSome : ¬ group.isEmpty = true := by
      intro hEmpty
      rw [parts_eq_nil hEmpty] at hLength
      cases hLength
    have hText : fragment schema (.text "(" :: (Script.joined " OR " (s :: rest) ++ [.text ")"]))
        = ⟨"(" ++ (Compiled.joined " OR " ((s :: rest).map (fragment schema))).sql ++ ")",
          (Compiled.joined " OR " ((s :: rest).map (fragment schema))).params⟩ := by
      rw [fragment_text, fragment_append, fragment_joined]
      simp [fragment, String.append_assoc]
    rw [if_neg hSome, Part.renderAll, Part.render, h]
    exact congrArg (fun x => some [x]) hText.symm

mutual

/-- Without errors the alternatives of a group are its parts. -/
theorem Filter.renderAll_parts : ∀ {f : Filter}, (alternatives n f).findSome? failure? = none →
    Part.renderAll schema n f.parts = some ((alternatives n f).map (fragment schema))
  | ⟨none, conditions, groups⟩, h => by
    rw [alternatives, List.findSome?_append, Option.or_eq_none_iff] at h
    rw [alternatives, parts, List.map_append]
    exact Part.renderAll_append schema (renderAll_conditions schema h.1)
      (renderAll_groupParts h.2)
  | ⟨some wrapped, conditions, groups⟩, h => by
    rw [alternatives, List.findSome?_append, List.findSome?_append, Option.or_eq_none_iff,
      Option.or_eq_none_iff] at h
    rw [alternatives, parts, List.map_append, List.map_append]
    exact Part.renderAll_append schema (Part.renderAll_append schema (renderAll_parts h.1.1)
      (renderAll_conditions schema h.1.2)) (renderAll_groupParts h.2)

theorem Filter.renderAll_groupParts : ∀ {groups : List Filter},
    (groupTerms n groups).findSome? failure? = none →
    Part.renderAll schema n (groupParts groups) = some ((groupTerms n groups).map (fragment schema))
  | [], _ => rfl
  | group :: rest, h => by
    rw [groupTerms, List.findSome?_append, failure?_parenthesised, Option.or_eq_none_iff] at h
    rw [groupTerms, groupParts, List.map_append]
    exact Part.renderAll_append schema (renderAll_group schema (renderAll_parts h.1))
      (renderAll_groupParts h.2)

end

/-- Without errors a conjunction has the terms that a disjunction would have. -/
theorem Filter.terms_eq_alternatives : ∀ {f : Filter}, (terms n f).findSome? failure? = none →
    terms n f = alternatives n f
  | ⟨none, conditions, groups⟩, h => by
    rw [terms, List.findSome?_append, Option.or_eq_none_iff] at h
    rw [terms, alternatives, conditionTerms_eq h.1]
  | ⟨some wrapped, conditions, groups⟩, h => by
    rw [terms, List.findSome?_append, List.findSome?_append, Option.or_eq_none_iff,
      Option.or_eq_none_iff] at h
    rw [terms, alternatives, terms_eq_alternatives h.1.1, conditionTerms_eq h.1.2]

theorem Filter.renderAll_terms {f : Filter} (h : (terms n f).findSome? failure? = none) :
    Part.renderAll schema n f.parts = some ((terms n f).map (fragment schema)) := by
  have hSame := terms_eq_alternatives h
  rw [hSame] at h ⊢
  exact renderAll_parts schema h

theorem fragment_whereTerms (correlation : Option Correlation) (row : Option UInt64)
    (terms : List Script) : (whereTerms n correlation row terms).map (fragment schema)
      = fixedTerms n correlation row ++ terms.map (fragment schema) := by
  cases correlation <;> cases row <;>
    simp [whereTerms, fixedTerms, Correlation.term, Source.rowTerm, fragment_singleton]

theorem fragment_whereScript (correlation : Option Correlation) (row : Option UInt64)
    (terms : List Script) : fragment schema (whereScript n correlation row terms)
      = Compiled.whereLine (fixedTerms n correlation row ++ terms.map (fragment schema)) := by
  rw [← fragment_whereTerms, whereScript_eq, Compiled.whereLine, List.isEmpty_map]
  cases whereTerms n correlation row terms with
  | nil => rfl
  | cons t rest =>
    rw [if_neg (List.cons_ne_nil t rest), if_neg (by simp), List.cons_append, fragment_text,
      fragment_append, fragment_joined]
    simp [fragment, String.append_assoc]

end

/-! ### Texts of parts -/

theorem Condition.sql_ne_empty_of_render {schema : String} {n : Naming} {c : Condition}
    {r : Compiled} (h : c.render schema n = some r) : r.sql ≠ "" := by
  obtain ⟨operand, -, rfl⟩ := Option.map_eq_some_iff.mp h
  have hFragment : c.operator.fragment ≠ "" := by cases c.operator <;> decide
  simp [hFragment]

/-- Nothing is written as an empty text, so that connectives never stand beside each other. -/
theorem Part.sql_ne_empty_of_render {schema : String} {n : Naming} {p : Part} {r : Compiled}
    (h : p.render schema n = some r) : r.sql ≠ "" := by
  cases p with
  | condition c =>
    rw [Part.render] at h
    exact Condition.sql_ne_empty_of_render h
  | group alternatives =>
    rw [Part.render] at h
    obtain ⟨rendered, -, rfl⟩ := Option.map_eq_some_iff.mp h
    simp

theorem sql_ne_empty_of_mem_fixedTerms {n : Naming} {correlation : Option Correlation}
    {row : Option UInt64} : ∀ r ∈ fixedTerms n correlation row, r.sql ≠ "" := by
  cases correlation <;> cases row <;> simp [fixedTerms]

theorem Compiled.whereLine_sql_eq_empty_iff {terms : List Compiled} :
    (whereLine terms).sql = "" ↔ terms = [] := by
  rw [whereLine]
  cases terms <;> simp

theorem fixedTerms_eq_nil_iff {n : Naming} {correlation : Option Correlation}
    {row : Option UInt64} : fixedTerms n correlation row = [] ↔ correlation = none ∧ row = none := by
  cases correlation <;> cases row <;> simp [fixedTerms]

/-! ### The line -/

namespace Filter

variable {n : Naming} {correlation : Option Correlation} {row : Option UInt64} {f : Filter}
  {c after : Context}

theorem parts_eq_nil_iff : f.parts = [] ↔ f.occurrences = [] := by
  rw [← f.isEmpty_iff]
  exact ⟨Function.mtr parts_ne_nil, parts_eq_nil⟩

theorem appended_of_runIn (h : runIn (whereScript n correlation row (f.terms n)) c = .ok after) :
    ∃ rendered, Part.renderAll c.schema n f.parts = some rendered ∧
      after.sql = c.sql ++ (Compiled.whereLine (fixedTerms n correlation row ++ rendered)).sql ∧
      after.params
        = c.params ++ (Compiled.whereLine (fixedTerms n correlation row ++ rendered)).params := by
  have hNone := failure?_eq_none_iff.mpr ⟨after, h⟩
  obtain ⟨naming, hRun⟩ := runIn_of_failure?_eq_none _ c hNone
  rw [h] at hRun
  obtain rfl := Except.ok.inj hRun
  rw [failure?_whereScript] at hNone
  refine ⟨_, renderAll_terms c.schema hNone, ?_⟩
  rw [← fragment_whereScript]
  exact ⟨rfl, rfl⟩

/-- A run of the WHERE line appends the fixed equalities and the parts of the filter, with AND
between them, or nothing if there are none of either. -/
theorem rendered_of_runIn (h : runIn (whereScript n correlation row (f.terms n)) c = .ok after) :
    (after.sql = c.sql ∧ after.params = c.params ↔
      correlation = none ∧ row = none ∧ f.occurrences = []) ∧
    (∃ rendered, Part.renderAll c.schema n f.parts = some rendered ∧
      after.sql = c.sql ++ (Compiled.whereLine (fixedTerms n correlation row ++ rendered)).sql ∧
      after.params
        = c.params ++ (Compiled.whereLine (fixedTerms n correlation row ++ rendered)).params) ∧
    (f.isEmpty = true ↔ f.occurrences = []) ∧
    Part.allConditions f.parts = f.occurrences ∧
    (∀ p ∈ f.parts, p.Filled) ∧
    (∀ p r, Part.render c.schema n p = some r → r.sql ≠ "") ∧
    ∀ r ∈ fixedTerms n correlation row, r.sql ≠ "" := by
  obtain ⟨rendered, hRendered, hSql, hParams⟩ := appended_of_runIn h
  refine ⟨?_, ⟨rendered, hRendered, hSql, hParams⟩, f.isEmpty_iff, f.conditions_parts,
    f.filled_parts, fun p r => Part.sql_ne_empty_of_render, sql_ne_empty_of_mem_fixedTerms⟩
  have hNothing : rendered = [] ↔ f.occurrences = [] := by
    rw [← parts_eq_nil_iff, ← List.length_eq_zero_iff, Part.length_of_renderAll _ hRendered,
      List.length_eq_zero_iff]
  constructor
  · rintro ⟨hSame, -⟩
    rw [hSame, eq_comm, String.append_eq_left_iff, Compiled.whereLine_sql_eq_empty_iff,
      List.append_eq_nil_iff, fixedTerms_eq_nil_iff, hNothing, and_assoc] at hSql
    exact hSql
  · rintro ⟨rfl, rfl, hOccurrences⟩
    rw [hNothing.mpr hOccurrences] at hSql hParams
    exact ⟨hSql.trans String.append_empty, hParams.trans (List.append_nil _)⟩

/-- It wraps a clause, has a subquery and groups within a group, and some groups are empty. -/
def layered : Filter :=
  ⟨some ⟨none, [⟨"a", .compare .gtEq (.int 1)⟩], []⟩,
    [⟨"b", .inSubquery (.filtered (.ofTable "t") ⟨none, [⟨"c", .compare .eq (.int 2)⟩], []⟩)⟩],
    [⟨some .any, [], [.any]⟩,
      ⟨none, [⟨"d", .null⟩],
        [.any, ⟨none, [⟨"e", .between (.int 3) (.int 4)⟩, ⟨"f", .notIn [.int 5, .int 6]⟩], []⟩]⟩]⟩

theorem rendered_of_runIn_layered : ∃ after rendered,
    runIn (whereScript (.aliased "u" []) none (some 7) (layered.terms (.aliased "u" [])))
      (Context.ofSchema "db") = .ok after ∧
    after.sql = "WHERE u.id=7 AND u.a>=? AND u.b IN (SELECT *\nFROM db.t\nWHERE c=?) AND "
      ++ "(u.d IS NULL OR (u.e BETWEEN ? AND ? OR u.f NOT IN (?,?)))\n" ∧
    Part.renderAll "db" (.aliased "u" []) layered.parts = some rendered ∧
    after.sql = "" ++ (Compiled.whereLine (⟨"u.id=7", []⟩ :: rendered)).sql := by
  obtain ⟨after, hRun, hSql⟩ : ∃ after,
      runIn (whereScript (.aliased "u" []) none (some 7) (layered.terms (.aliased "u" [])))
        (Context.ofSchema "db") = .ok after ∧
      after.sql = "WHERE u.id=7 AND u.a>=? AND u.b IN (SELECT *\nFROM db.t\nWHERE c=?) AND "
        ++ "(u.d IS NULL OR (u.e BETWEEN ? AND ? OR u.f NOT IN (?,?)))\n" :=
    ⟨_, rfl, by cbv⟩
  obtain ⟨-, ⟨rendered, hRendered, hLine, -⟩, -⟩ := rendered_of_runIn hRun
  exact ⟨after, rendered, hRun, hSql, hRendered, hLine⟩

end Filter

end SqlStatement
