import Mathlib
import SqlStatement.Proofs.JoinMap
import SqlStatement.Proofs.Nesting
import SqlStatement.Proofs.OrderedAliases

/-!
# Fields with the alias of the base table

A field without a point belongs to the base table, whose alias is put in front of
it.  To put it there by hand changes nothing: the select is planned alike, and
every clause writes the two spellings alike.

* `Select.mapFields`: a function on fields, carried out on all fields of a select
  but not on those of its subqueries and JSON sub-selects.
* `Naming.Respells`: the function only changes how a field is spelled.
* `Select.script_mapFields`: then the select is written as before, if fields with
  conditions are not confused.
* `Field.under`: the alias of the base table in front of a field, and
  `Select.compile_qualified`: with it the select compiles to the same.
-/

namespace SqlStatement

open Script

/-! ### Respelled fields -/

section Map

variable (g : String → String)

def SelectField.mapField (f : SelectField) : SelectField := { f with field := g f.field }

def OrderField.mapField (o : OrderField) : OrderField := { o with field := g o.field }

def JsonSource.mapField : JsonSource → JsonSource
  | .document field => .document (g field)
  | .keyValue field => .keyValue (g field)

def JsonTable.mapField (t : JsonTable) : JsonTable :=
  { t with source := t.source.map (JsonSource.mapField g) }

def Selection.mapFields (s : Selection) : Selection :=
  { s with
    fields := s.fields.map (SelectField.mapField g)
    jsonTables := s.jsonTables.map (JsonTable.mapField g)
    group := s.group.map g
    order := s.order.map (OrderField.mapField g) }

/-- Only the field of the condition, not those of a subquery. -/
def Condition.mapField (c : Condition) : Condition := ⟨g c.field, c.test⟩

mutual

def Filter.mapFields : Filter → Filter
  | ⟨none, conditions, groups⟩ =>
    ⟨none, conditions.map (Condition.mapField g), Filter.mapGroupFields groups⟩
  | ⟨some wrapped, conditions, groups⟩ =>
    ⟨some (Filter.mapFields wrapped), conditions.map (Condition.mapField g),
      Filter.mapGroupFields groups⟩

def Filter.mapGroupFields : List Filter → List Filter
  | [] => []
  | f :: rest => Filter.mapFields f :: Filter.mapGroupFields rest

end

/-- Only the side of the select around it. -/
def JsonSelect.mapOuter (j : JsonSelect) : JsonSelect := ⟨j.name, j.query, j.inner, g j.outer⟩

/-- The select with `g` carried out on its own fields. -/
def Select.mapFields (s : Select) : Select :=
  ⟨s.source.mapForeign g, s.selection.mapFields g, s.filter.mapFields g,
    s.json.map (JsonSelect.mapOuter g)⟩

/-! ### What a select mentions -/

mutual

theorem Filter.fields_mapFields : ∀ f : Filter, (f.mapFields g).fields = f.fields.map g
  | ⟨none, conditions, groups⟩ => by
    rw [mapFields, fields, fields, groupFields_mapGroupFields groups, List.map_append, List.map_map,
      List.map_map]
    rfl
  | ⟨some wrapped, conditions, groups⟩ => by
    rw [mapFields, fields, fields, fields_mapFields wrapped, groupFields_mapGroupFields groups,
      List.map_append, List.map_append, List.map_map, List.map_map]
    rfl

theorem Filter.groupFields_mapGroupFields : ∀ groups : List Filter,
    groupFields (mapGroupFields g groups) = (groupFields groups).map g
  | [] => rfl
  | f :: rest => by
    rw [mapGroupFields, groupFields, groupFields, fields_mapFields f,
      groupFields_mapGroupFields rest, List.map_append]

end

theorem JsonTable.sourceFields_mapField (t : JsonTable) :
    (t.mapField g).sourceFields = t.sourceFields.map g := by
  obtain ⟨name, source, path, columns⟩ := t
  rcases source with _ | (field | field) <;> rfl

theorem Select.mentioned_mapFields (s : Select) :
    (s.mapFields g).mentioned = s.mentioned.map g := by
  simp only [mentioned, mapFields, Selection.mapFields, Filter.fields_mapFields, List.map_append,
    List.map_map, List.flatMap_map, List.map_flatMap, JsonTable.sourceFields_mapField]
  rfl

end Map

/-- The function changes the spelling of fields, not the fields: they are written alike, and `*`
and the aliases of other tables stay. -/
structure Naming.Respells (n : Naming) (g : String → String) : Prop where
  qualify_eq : ∀ field, n.qualify (g field) = n.qualify field
  eq_star_iff : ∀ field, g field = "*" ↔ field = "*"
  keepsOwners : Field.KeepsOwners n.base g

theorem Select.plan_mapFields {s : Select} {p : Plan} {g : String → String}
    (hPlan : s.plan none = .ok p) (h : p.naming.Respells g) :
    (s.mapFields g).plan none = .ok (p.mapForeign g) := by
  have hNames : ((s.mapFields g).selection.jsonTables.map (·.name))
      = s.selection.jsonTables.map (·.name) := by
    simp only [mapFields, Selection.mapFields, List.map_map]
    rfl
  rw [plan] at hPlan ⊢
  rw [mentioned_mapFields, hNames]
  simp only [mapFields, Selection.mapFields, List.isEmpty_map]
  exact Source.plan_mapForeign g hPlan h.keepsOwners

/-! ### The clauses -/

section Clauses

variable {n : Naming} {g : String → String} (h : n.Respells g)

include h

theorem OnTerm.script_mapForeign (name : String) (t : OnTerm) :
    (t.mapForeign g).script n name = t.script n name := by
  obtain ⟨field, operator, target⟩ := t
  cases target with
  | field foreign => simp only [mapForeign, OnTarget.mapForeign, script, h.qualify_eq]
  | value v => rfl

theorem Join.scripts_mapForeign (joins : List Join) :
    scripts n (joins.map (mapForeign g)) = scripts n joins := by
  rw [scripts, scripts, List.flatMap_map]
  refine List.flatMap_congr fun j _ => ?_
  have hTerms : (j.mapForeign g).terms.flatMap (OnTerm.script n j.name)
      = j.terms.flatMap (OnTerm.script n j.name) := by
    rw [mapForeign, List.flatMap_map]
    exact List.flatMap_congr fun t _ => OnTerm.script_mapForeign h j.name t
  rw [script, script, name_mapForeign, hTerms, mapForeign, h.qualify_eq]

theorem SelectField.written_mapField (f : SelectField) :
    (f.mapField g).written n = f.written n := by
  have hTarget : (f.mapField g).target n = f.target n := by
    rw [target, target, mapField]
    simp only [h.eq_star_iff, h.qualify_eq]
  have hExpression : (f.mapField g).expression n = f.expression n := by
    rw [expression, expression, hTarget, mapField]
  rw [written, written, hExpression, mapField]

theorem JsonSource.written_mapField (s : JsonSource) : (s.mapField g).written n = s.written n := by
  cases s with
  | document field => exact h.qualify_eq field
  | keyValue field =>
    exact congrArg (fun text => "JSON_KEY_VALUE(" ++ text ++ ", '$')") (h.qualify_eq field)

theorem JsonTable.script_mapField (t : JsonTable) : (t.mapField g).script n = t.script n := by
  obtain ⟨name, source, path, columns⟩ := t
  cases source with
  | none => rfl
  | some source =>
    cases columns <;> simp only [mapField, Option.map_some, script, JsonSource.written_mapField h]

namespace Selection

variable (s : Selection)

theorem headScript_mapFields (json : List NamedScript) :
    (s.mapFields g).headScript false n json = s.headScript false n json := by
  have hItems : (s.mapFields g).items n json = s.items n json := by
    rw [items, items, mapFields, List.map_map]
    congr 1
    exact List.map_congr_left fun f _ => by rw [Function.comp_apply, SelectField.written_mapField h]
  simp only [headScript, listScript, hItems]
  rfl

theorem fromScript_mapFields (table : String) :
    (s.mapFields g).fromScript n table = s.fromScript n table := by
  rw [fromScript, fromScript, mapFields, List.flatMap_map]
  simp only [JsonTable.script_mapField h]

theorem tailScript_mapFields : (s.mapFields g).tailScript n = s.tailScript n := by
  have hOrder : ∀ o : OrderField, (o.mapField g).written n = o.written n := fun o => by
    rw [OrderField.written, OrderField.written, OrderField.mapField, h.qualify_eq]
  simp only [tailScript, mapFields, List.map_map, Function.comp_def, h.qualify_eq, hOrder]
  rfl

end Selection

theorem JsonSelect.scripts_mapOuter : ∀ json : List JsonSelect,
    scripts n (json.map (mapOuter g)) = scripts n json
  | [] => rfl
  | ⟨name, query, inner, outer⟩ :: rest => by
    rw [List.map_cons, scripts, scripts, scripts_mapOuter rest, mapOuter, script, script,
      h.qualify_eq]

end Clauses

/-! ### Filters -/

section Filters

variable {n : Naming} {g : String → String}

/-- Only the message of an error has the field as it is spelled. -/
theorem Test.script_respelled (h : n.Respells g) {field : String} {test : Test}
    (hNone : failure? (Test.script n field test) = none) :
    Test.script n (g field) test = Test.script n field test := by
  cases test with
  | inList values =>
    cases values with
    | nil => simp [script, Filter.listOperand] at hNone
    | cons v rest => simp only [script, h.qualify_eq, Filter.listOperand]
  | notIn values =>
    cases values with
    | nil => simp [script, Filter.listOperand] at hNone
    | cons v rest => simp only [script, h.qualify_eq, Filter.listOperand]
  | _ => simp only [script, h.qualify_eq]

namespace Filter

theorem conditionScripts_mapField (h : n.Respells g) : ∀ {conditions : List Condition},
    (conditionScripts n conditions).findSome? failure? = none →
    conditionScripts n (conditions.map (Condition.mapField g)) = conditionScripts n conditions
  | [], _ => rfl
  | ⟨field, test⟩ :: rest, hNone => by
    rw [conditionScripts, findSome?_cons_or, Option.or_eq_none_iff] at hNone
    rw [List.map_cons, Condition.mapField, conditionScripts, conditionScripts,
      Test.script_respelled h hNone.1, conditionScripts_mapField h hNone.2]

mutual

theorem alternatives_mapFields (h : n.Respells g) : ∀ {f : Filter},
    (alternatives n f).findSome? failure? = none →
    alternatives n (f.mapFields g) = alternatives n f
  | ⟨none, conditions, groups⟩, hNone => by
    rw [alternatives, List.findSome?_append, Option.or_eq_none_iff] at hNone
    rw [mapFields, alternatives, alternatives, conditionScripts_mapField h hNone.1,
      groupTerms_mapGroupFields h hNone.2]
  | ⟨some wrapped, conditions, groups⟩, hNone => by
    rw [alternatives, List.findSome?_append, List.findSome?_append, Option.or_eq_none_iff,
      Option.or_eq_none_iff] at hNone
    rw [mapFields, alternatives, alternatives, alternatives_mapFields h hNone.1.1,
      conditionScripts_mapField h hNone.1.2, groupTerms_mapGroupFields h hNone.2]

theorem groupTerms_mapGroupFields (h : n.Respells g) : ∀ {groups : List Filter},
    (groupTerms n groups).findSome? failure? = none →
    groupTerms n (mapGroupFields g groups) = groupTerms n groups
  | [], _ => rfl
  | f :: rest, hNone => by
    rw [groupTerms, List.findSome?_append, failure?_parenthesised, Option.or_eq_none_iff] at hNone
    rw [mapGroupFields, groupTerms, groupTerms, alternatives_mapFields h hNone.1,
      groupTerms_mapGroupFields h hNone.2]

end

/-- What was seen on a field was seen on its image, if no other field has this image. -/
theorem lookup_map {seen : List (String × Operator)} {field : String}
    (hInj : ∀ p ∈ seen, g p.1 = g field → p.1 = field) :
    (seen.map fun p => (g p.1, p.2)).lookup (g field) = seen.lookup field := by
  induction seen with
  | nil => rfl
  | cons p rest ih =>
    obtain ⟨other, operator⟩ := p
    rw [List.map_cons, List.lookup_cons, List.lookup_cons,
      ih fun p hp => hInj p (List.mem_cons_of_mem _ hp)]
    by_cases hSame : field = other
    · rw [hSame, beq_self_eq_true, beq_self_eq_true]
    · have hImage : g field ≠ g other := fun hEq =>
        hSame (hInj (other, operator) List.mem_cons_self hEq.symm).symm
      rw [beq_false_of_ne hSame, beq_false_of_ne hImage]

theorem check_map {seen : List (String × Operator)} {field : String} {next : Operator}
    (hInj : ∀ p ∈ seen, g p.1 = g field → p.1 = field) (hCheck : check seen field next = .ok ()) :
    check (seen.map fun p => (g p.1, p.2)) (g field) next = .ok () := by
  rw [check] at hCheck
  rw [check, lookup_map hInj]
  cases hSeen : seen.lookup field with
  | none => rfl
  | some current =>
    have hAdmits : current.admits next = true := by
      rw [hSeen] at hCheck
      by_contra hNot
      simp [Operator.checkFollowedBy, hNot] at hCheck
    simp [Operator.checkFollowedBy, hAdmits]

/-- Conditions that pass the check pass it under their new spelling. -/
theorem conditionTerms_mapField (h : n.Respells g) : ∀ {conditions : List Condition}
    {seen : List (String × Operator)},
    (∀ c ∈ conditions, ∀ p ∈ seen, g p.1 = g c.field → p.1 = c.field) →
    (∀ c ∈ conditions, ∀ d ∈ conditions, g c.field = g d.field → c.field = d.field) →
    (conditionTerms n seen conditions).findSome? failure? = none →
    conditionTerms n (seen.map fun p => (g p.1, p.2)) (conditions.map (Condition.mapField g))
      = conditionTerms n seen conditions
  | [], _, _, _, _ => rfl
  | ⟨field, test⟩ :: rest, seen, hSeen, hInj, hNone => by
    rw [conditionTerms, findSome?_cons_or, Option.or_eq_none_iff] at hNone
    obtain ⟨hHead, hTail⟩ := hNone
    have hScript : failure? (Test.script n field test) = none := by rwa [guarded_eq hHead] at hHead
    have hCheck : check seen field test.operator = .ok () := by
      cases hVerdict : check seen field test.operator with
      | error e => rw [hVerdict] at hHead; simp [guarded] at hHead
      | ok u => rfl
    have hCheck' := check_map (hSeen ⟨field, test⟩ List.mem_cons_self) hCheck
    -- The condition at hand joins those that were seen, and is kept apart from the rest likewise.
    have hSeen' : ∀ c ∈ rest, ∀ p ∈ (field, test.operator) :: seen,
        g p.1 = g c.field → p.1 = c.field := by
      intro c hc p hp hEq
      rcases List.mem_cons.mp hp with rfl | hp
      · exact hInj _ List.mem_cons_self c (List.mem_cons_of_mem _ hc) hEq
      · exact hSeen c (List.mem_cons_of_mem _ hc) p hp hEq
    have hRest := conditionTerms_mapField h hSeen'
      (fun c hc d hd => hInj c (List.mem_cons_of_mem _ hc) d (List.mem_cons_of_mem _ hd)) hTail
    rw [List.map_cons, Condition.mapField, conditionTerms, conditionTerms, hCheck, hCheck',
      Test.script_respelled h hScript]
    exact congrArg _ hRest

theorem terms_mapFields (h : n.Respells g) : ∀ {f : Filter},
    (∀ a ∈ f.fields, ∀ b ∈ f.fields, g a = g b → a = b) →
    (terms n f).findSome? failure? = none → terms n (f.mapFields g) = terms n f
  | ⟨none, conditions, groups⟩, hInj, hNone => by
    rw [terms, List.findSome?_append, Option.or_eq_none_iff] at hNone
    have hOwn : ∀ c ∈ conditions, c.field ∈ (Filter.mk none conditions groups).fields := fun c hc =>
      List.mem_append_right _ (List.mem_map_of_mem hc)
    have hConditions := @conditionTerms_mapField n g h conditions []
      (fun _ _ _ hp => absurd hp List.not_mem_nil)
      (fun c hc d hd => hInj _ (hOwn c hc) _ (hOwn d hd)) hNone.1
    rw [mapFields, terms, terms, groupTerms_mapGroupFields h hNone.2]
    exact congrArg (· ++ _) hConditions
  | ⟨some wrapped, conditions, groups⟩, hInj, hNone => by
    rw [terms, List.findSome?_append, List.findSome?_append, Option.or_eq_none_iff,
      Option.or_eq_none_iff] at hNone
    have hOwn : ∀ c ∈ conditions, c.field ∈ (Filter.mk (some wrapped) conditions groups).fields :=
      fun c hc => List.mem_append_right _ (List.mem_map_of_mem hc)
    have hWrapped : ∀ a ∈ wrapped.fields,
        a ∈ (Filter.mk (some wrapped) conditions groups).fields := fun a ha =>
      List.mem_append_left _ (List.mem_append_left _ ha)
    have hConditions := @conditionTerms_mapField n g h conditions []
      (fun _ _ _ hp => absurd hp List.not_mem_nil)
      (fun c hc d hd => hInj _ (hOwn c hc) _ (hOwn d hd)) hNone.1.2
    rw [mapFields, terms, terms, groupTerms_mapGroupFields h hNone.2,
      terms_mapFields h (fun a ha b hb => hInj a (hWrapped a ha) b (hWrapped b hb)) hNone.1.1]
    exact congrArg (terms n wrapped ++ · ++ _) hConditions

end Filter

end Filters

/-! ### Selects -/

/-- A select without errors is written as before, if no two fields with conditions become one. -/
theorem Select.script_mapFields {s : Select} {p : Plan} {g : String → String}
    (hNone : failure? (s.script none) = none) (hPlan : s.plan none = .ok p)
    (h : p.naming.Respells g)
    (hInj : ∀ a ∈ s.filter.fields, ∀ b ∈ s.filter.fields, g a = g b → a = b) :
    (s.mapFields g).script none = s.script none := by
  -- An error would name the field in its new spelling, so the filter must have none.
  have hTerms : (s.filter.terms p.naming).findSome? failure? = none := by
    rw [failure?_script, hPlan] at hNone
    simp only [Option.or_eq_none_iff] at hNone
    exact hNone.2.2.2
  rw [script_eq (plan_mapFields hPlan h), script_eq hPlan]
  simp only [mapFields, Plan.mapForeign, Option.isSome_none, JsonSelect.scripts_mapOuter h,
    Selection.headScript_mapFields h, Selection.fromScript_mapFields h,
    Join.scripts_mapForeign h, Filter.terms_mapFields h hInj hTerms,
    Selection.tailScript_mapFields h]
  rfl

/-! ### The alias by hand -/

namespace Field

/-- The field with `base` in front of it, unless it has an alias, stands for all columns or is among
those that are `kept`. -/
def under (base : String) (kept : List String) (field : String) : String :=
  if isQualified field || field == "*" || kept.contains field then field else ofTable base field

variable {base : String} {kept : List String}

theorem under_eq (base : String) (kept : List String) (field : String) :
    under base kept field = field ∨
      (isQualified field = false ∧ field ≠ "*") ∧ under base kept field = ofTable base field := by
  rw [under]
  cases hQualified : isQualified field with
  | true => exact .inl rfl
  | false =>
    by_cases hStar : field = "*"
    · exact .inl (by simp [hStar])
    · by_cases hKept : field ∈ kept
      · exact .inl (by simp [hKept])
      · exact .inr ⟨⟨rfl, hStar⟩, by simp [hStar, hKept]⟩

theorem isQualified_ofTable (name field : String) : isQualified (ofTable name field) = true := by
  simp [isQualified, ofTable]

theorem qualifier?_ofTable {name : String} (hName : isQualified name = false) (field : String) :
    qualifier? (ofTable name field) = some name := by
  have hDot : '.' ∉ name.toList := by
    simpa [isQualified] using hName
  have hText : (ofTable name field).toList = name.toList ++ '.' :: field.toList := by
    simp [ofTable]
  rw [qualifier?, hText, Text.cutFirst_append _ _ hDot]
  simp

/-- Two fields that become one were one, unless one of them had this alias before. -/
theorem eq_of_under_eq {a b : String} (ha : ¬ (base ++ ".").toList <+: a.toList)
    (hb : ¬ (base ++ ".").toList <+: b.toList) (h : under base kept a = under base kept b) :
    a = b := by
  have hPrefix : ∀ field, (base ++ ".").toList <+: (ofTable base field).toList := fun field =>
    ⟨field.toList, String.toList_append.symm⟩
  rcases under_eq base kept a with hA | ⟨-, hA⟩ <;> rcases under_eq base kept b with hB | ⟨-, hB⟩
  · rw [← hA, h, hB]
  · exact absurd (hPrefix b) (by rwa [← hB, ← h, hA])
  · exact absurd (hPrefix a) (by rwa [← hA, h, hB])
  · rw [hA, hB] at h
    exact (String.append_right_inj _).mp h

end Field

/-- An alias without a point is put in front of fields as if by itself. -/
theorem Naming.respells_under {n : Naming} (hUse : n.inUse = true)
    (hBase : Field.isQualified n.base = false) (kept : List String) :
    n.Respells (Field.under n.base kept) := by
  constructor <;> intro field <;>
    rcases Field.under_eq n.base kept field with hSame | ⟨⟨hQualified, hStar⟩, hUnder⟩
  · rw [hSame]
  · rw [hUnder, Naming.qualify_of_inUse hUse hQualified]
    exact Naming.qualify_eq_self_iff.mpr (.inr (Field.isQualified_ofTable _ _))
  · rw [hSame]
  · refine iff_of_false (fun hEq => ?_) hStar
    have hDot := Field.isQualified_ofTable n.base field
    rw [← hUnder, hEq] at hDot
    exact absurd hDot (by decide)
  · rw [hSame]
  · have hNone : Field.qualifier? field = none := by
      rw [← Option.not_isSome_iff_eq_none, ← Field.isQualified_iff_qualifier?, hQualified]
      decide
    rw [hUnder, Field.qualifier?_ofTable hBase, hNone]
    simp

namespace Select

/-- With the alias of the base table put by hand in front of every field that has none, `*` and the
output aliases apart, a select compiles to the same text and the same values, whether it is pruned
or not.  Its filter, whose operators are checked field by field, must not spell a field that way
before. -/
theorem compile_qualified {schema : String} {s : Select} {c : Compiled} {p : Plan}
    (hCompile : (Statement.select s).compile schema = .ok c) (hPlan : s.plan none = .ok p)
    (hUse : p.naming.inUse = true) (hBase : Field.isQualified p.naming.base = false)
    (hFields : ∀ field ∈ s.filter.fields, ¬ (p.naming.base ++ ".").toList <+: field.toList) :
    (Statement.select (s.mapFields (Field.under p.naming.base s.selection.outputs))).compile schema
      = .ok c := by
  have hScript := script_mapFields (compile_eq_ok_iff.mp hCompile).1 hPlan
    (Naming.respells_under hUse hBase s.selection.outputs)
    fun a ha b hb => Field.eq_of_under_eq (hFields a ha) (hFields b hb)
  rw [← hCompile, Statement.compile, Statement.compile, Statement.script, Statement.script, hScript]

/-- Roles with their users, in every clause that has fields. -/
def roles : Select :=
  ⟨{ Source.ofTable "users" with
      joins := [⟨.left, "clients", "c", "id", "client_id", [.column "site" "site"]⟩,
        ⟨.left, "orders", "o", "user_id", "id", []⟩], prune := true },
    { Selection.all with
      fields := [.plain "role", ⟨"id", some "count", some "n"⟩, .plain "c.city"]
      jsonTables := [(JsonTable.named "t").fromDocument "tags" "$[*]" |>.column "name" "TEXT" "$"]
      group := ["role"]
      order := [.desc "n", .asc "role"] },
    (Filter.any.compare .gt "age" (.int 17)).compare .lt "age" (.int 66)
      |>.orGroup (Filter.any.condition "role" .notNull),
    [⟨"rates", (Select.ofTable "rates").fields [.plain "at", .plain "rate"], "user_id", "id"⟩]⟩

theorem compile_qualified_roles : ∃ c p,
    (Statement.select roles).compile "shop" = .ok c ∧ roles.plan none = .ok p ∧
    p.naming.base = "u" ∧ p.joins.map Join.name = ["c"] ∧
    roles.selection.outputs = ["n"] ∧
    (roles.mapFields (Field.under "u" ["n"])).mentioned = ["u.role", "u.id", "c.city", "u.id",
      "u.tags", "u.role", "n", "u.role", "u.role", "u.age", "u.age"] ∧
    (Statement.select (roles.mapFields (Field.under "u" ["n"]))).compile "shop" = .ok c := by
  have hPlan : roles.plan none = .ok ⟨.aliased "u"
      [("t", ""), ("c", "clients"), ("o", "orders"), ("u", "users")],
      [⟨.left, "clients", "c", "id", "client_id", [.column "site" "site"]⟩]⟩ := by cbv
  have hNone : failure? (roles.script none) = none := by
    rw [failure?_script, hPlan]
    rfl
  obtain ⟨c, hCompile⟩ : ∃ c, (Statement.select roles).compile "shop" = .ok c :=
    ⟨_, compile_eq_ok_iff.mpr ⟨hNone, rfl⟩⟩
  have hFields : ∀ field ∈ roles.filter.fields, ¬ ("u" ++ ".").toList <+: field.toList := by decide
  have hOutputs : roles.selection.outputs = ["n"] := rfl
  have hQualified := compile_qualified hCompile hPlan rfl (by decide) hFields
  rw [hOutputs] at hQualified
  exact ⟨c, _, hCompile, hPlan, rfl, rfl, hOutputs, by decide, hQualified⟩

end Select

end SqlStatement
