import SqlStatement.Proofs.AliasUniqueness
import SqlStatement.Proofs.ClauseLines

/-!
# Where aliases are introduced and used

The FROM line introduces the alias of the base table and those of the JSON
tables, each join line the alias of its join.  A field on these lines should
stand behind the place that introduces the alias in front of it.  On the join
lines of a pruned select it does.  A JSON table reads its source on the FROM
line, in front of all joins.

* `Segment`: a part of these lines; `Segment.spelled` puts the parts together.
* `Segment.InOrder`: no field is used in front of its alias.
* `Join.inOrder_flatMap`: resolved joins are in order.
* `Level.inOrder_iff_of_compile`: the lines of a pruned select are in order unless
  a JSON table reads a field of a join.
-/

namespace SqlStatement

open Script

inductive Segment
  | text (s : String)
  | table (name : String)
  /-- An alias where it is given to a table. -/
  | alias (a : String)
  /-- A field that may be one of another table. -/
  | column (field : String)

namespace Segment

def written (schema : String) (n : Naming) : Segment → List Char
  | .text s => s.toList
  | .table name => (schema ++ "." ++ name).toList
  | .alias a => a.toList
  | .column field => (n.qualify field).toList

def spelled (schema : String) (n : Naming) (l : List Segment) : List Char :=
  l.flatMap (written schema n)

def alias? : Segment → Option String
  | .alias a => some a
  | .text _ | .table _ | .column _ => none

def introduced (l : List Segment) : List String := l.filterMap alias?

/-- Every field under one of the `known` aliases stands behind the segment that introduces this
alias, unless the alias is among those `seen` before. -/
def InOrder (n : Naming) (known seen : List String) (l : List Segment) : Prop :=
  ∀ before field after, l = before ++ .column field :: after → n.owner field ∈ known →
    n.owner field ∈ seen ++ introduced before

@[simp] theorem introduced_nil : introduced [] = [] := rfl

theorem introduced_append (a b : List Segment) :
    introduced (a ++ b) = introduced a ++ introduced b := List.filterMap_append

section Order

variable {n : Naming} {known seen : List String}

theorem inOrder_append {a b : List Segment} : InOrder n known seen (a ++ b) ↔
    InOrder n known seen a ∧ InOrder n known (seen ++ introduced a) b := by
  constructor
  · intro h
    refine ⟨fun before field after hSplit hKnown => ?_, fun before field after hSplit hKnown => ?_⟩
    · exact h before field (after ++ b) (by rw [hSplit]; simp) hKnown
    · have hSeen := h (a ++ before) field after (by rw [hSplit]; simp) hKnown
      rwa [introduced_append, ← List.append_assoc] at hSeen
  · rintro ⟨ha, hb⟩ before field after hSplit hKnown
    rcases List.append_eq_append_iff.mp hSplit with ⟨mid, rfl, hRest⟩ | ⟨mid, rfl, hRest⟩
    · rw [introduced_append, ← List.append_assoc]
      exact hb mid field after hRest hKnown
    · cases mid with
      | nil => simpa using hb [] field after hRest.symm hKnown
      | cons x rest =>
        obtain ⟨rfl, -⟩ := List.cons_eq_cons.mp hRest
        exact ha before field rest rfl hKnown

@[simp] theorem inOrder_nil : InOrder n known seen [] := by
  intro before field after hSplit
  exact absurd hSplit.symm (List.append_ne_nil_of_right_ne_nil _ (List.cons_ne_nil _ _))

theorem inOrder_singleton {x : Segment} : InOrder n known seen [x] ↔
    ∀ field, x = .column field → n.owner field ∈ known → n.owner field ∈ seen := by
  constructor
  · rintro h field rfl hKnown
    simpa using h [] field [] rfl hKnown
  · intro h before field after hSplit hKnown
    cases before with
    | nil =>
      obtain ⟨hx, -⟩ := List.cons_eq_cons.mp hSplit
      exact List.mem_append_left _ (h field hx hKnown)
    | cons y rest => simp at hSplit

theorem inOrder_cons {x : Segment} {rest : List Segment} : InOrder n known seen (x :: rest) ↔
    (∀ field, x = .column field → n.owner field ∈ known → n.owner field ∈ seen) ∧
      InOrder n known (seen ++ x.alias?.toList) rest := by
  rw [← inOrder_singleton]
  cases x <;> exact inOrder_append (a := [_])

variable {rest : List Segment}

@[simp] theorem inOrder_cons_text {s : String} :
    InOrder n known seen (.text s :: rest) ↔ InOrder n known seen rest := by
  simp [inOrder_cons, alias?]

@[simp] theorem inOrder_cons_table {name : String} :
    InOrder n known seen (.table name :: rest) ↔ InOrder n known seen rest := by
  simp [inOrder_cons, alias?]

@[simp] theorem inOrder_cons_alias {a : String} :
    InOrder n known seen (.alias a :: rest) ↔ InOrder n known (seen ++ [a]) rest := by
  simp [inOrder_cons, alias?]

@[simp] theorem inOrder_cons_column {field : String} :
    InOrder n known seen (.column field :: rest) ↔
      (n.owner field ∈ known → n.owner field ∈ seen) ∧ InOrder n known seen rest := by
  simp [inOrder_cons, alias?]

/-- Lines are in order if each is, given those before it. -/
theorem inOrder_flatMap {α : Type} {f : α → List Segment} {l : List α} :
    InOrder n known seen (l.flatMap f) ↔ ∀ before x after, l = before ++ x :: after →
      InOrder n known (seen ++ introduced (before.flatMap f)) (f x) := by
  induction l generalizing seen with
  | nil => simp [inOrder_nil]
  | cons y rest ih =>
    rw [List.flatMap_cons, inOrder_append, ih]
    constructor
    · rintro ⟨hy, hRest⟩ before x after hSplit
      cases before with
      | nil =>
        obtain ⟨rfl, -⟩ := List.cons_eq_cons.mp hSplit
        simpa using hy
      | cons z before =>
        obtain ⟨rfl, hTail⟩ := List.cons_eq_cons.mp hSplit
        have hx := hRest before x after hTail
        rwa [List.append_assoc, ← introduced_append, ← List.flatMap_cons] at hx
    · intro h
      refine ⟨by simpa using h [] y rest rfl, fun before x after hSplit => ?_⟩
      have hx := h (y :: before) x after (by rw [hSplit]; rfl)
      rwa [List.flatMap_cons, introduced_append, ← List.append_assoc] at hx

end Order

end Segment

/-! ### The lines of a select -/

def JsonSource.segments : JsonSource → List Segment
  | .document field => [.column field]
  | .keyValue field => [.text "JSON_KEY_VALUE(", .column field, .text ", '$')"]

def JsonTable.segments (t : JsonTable) : List Segment :=
  Segment.text ", JSON_TABLE(" :: t.source.toList.flatMap JsonSource.segments
    ++ [Segment.text t.columnText, .alias t.name]

def Naming.suffixSegments : Naming → List Segment
  | .bare => []
  | .aliased base _ => [.text " ", .alias base]

def Selection.fromSegments (n : Naming) (table : String) (s : Selection) : List Segment :=
  [Segment.text "FROM ", .table table] ++ n.suffixSegments
    ++ s.jsonTables.flatMap JsonTable.segments ++ [Segment.text "\n"]

def OnTarget.segments : OnTarget → List Segment
  | .field foreign => [.column foreign]
  | .value v => [.text v.literal]

/-- The field of the joined table itself is not one of another table. -/
def OnTerm.segments (name : String) (t : OnTerm) : List Segment :=
  .text (" AND " ++ Field.ofTable name t.field ++ t.operator.fragment)
    :: if t.operator.isNullTest then [] else t.target.segments

def Join.segments (j : Join) : List Segment :=
  [Segment.text (j.mode.keyword ++ " "), .table j.table, .text " ", .alias j.name,
    .text (" ON " ++ Field.ofTable j.name j.field ++ "="), .column j.foreign]
    ++ j.terms.flatMap (OnTerm.segments j.name) ++ [Segment.text "\n"]

section Spelling

variable {schema : String} {n : Naming}

theorem Segment.spelled_append (a b : List Segment) :
    spelled schema n (a ++ b) = spelled schema n a ++ spelled schema n b := List.flatMap_append

theorem Segment.spelled_flatMap {α : Type} {f : α → List Segment} {text : α → String}
    (h : ∀ x, spelled schema n (f x) = (text x).toList) (l : List α) :
    spelled schema n (l.flatMap f) = (String.join (l.map text)).toList := by
  have hText : (fun x => (f x).flatMap (written schema n)) = fun x => (text x).toList := funext h
  rw [spelled, List.flatMap_assoc, hText, String.toList_join, List.flatMap_map]

theorem JsonSource.spelled_segments (s : JsonSource) :
    Segment.spelled schema n s.segments = (s.written n).toList := by
  cases s with
  | document field => exact List.append_nil _
  | keyValue field =>
    show _ = ("JSON_KEY_VALUE(" ++ n.qualify field ++ ", '$')").toList
    simp [segments, Segment.spelled, Segment.written]

theorem JsonTable.spelled_segments (t : JsonTable) :
    Segment.spelled schema n t.segments = (t.text n).toList := by
  obtain ⟨name, source, path, columns⟩ := t
  cases source with
  | none => simp [segments, text, sourceText, Segment.spelled, Segment.written]
  | some source =>
    have hSource := @JsonSource.spelled_segments schema n source
    simp only [Segment.spelled] at hSource
    simp [segments, text, sourceText, Segment.spelled, Segment.written, hSource]

theorem Naming.spelled_suffixSegments :
    Segment.spelled schema n n.suffixSegments = n.suffix.toList := by
  cases n <;> simp [suffixSegments, suffix, Segment.spelled, Segment.written]

theorem Selection.spelled_fromSegments (table : String) (s : Selection) :
    Segment.spelled schema n (s.fromSegments n table) = (s.fromLine schema n table).toList := by
  simp only [fromSegments, Segment.spelled_append, Naming.spelled_suffixSegments,
    Segment.spelled_flatMap JsonTable.spelled_segments]
  simp [fromLine, Segment.spelled, Segment.written]

theorem OnTerm.spelled_segments (name : String) (t : OnTerm) :
    Segment.spelled schema n (t.segments name) = (t.text n name).toList := by
  obtain ⟨field, operator, target⟩ := t
  cases target <;> cases hNull : operator.isNullTest <;>
    simp [segments, text, hNull, OnTarget.segments, Segment.spelled, Segment.written]

theorem Join.spelled_segments (j : Join) :
    Segment.spelled schema n j.segments = (j.text schema n).toList := by
  simp only [segments, Segment.spelled_append,
    Segment.spelled_flatMap (OnTerm.spelled_segments j.name)]
  simp [text, onText, Segment.spelled, Segment.written]

end Spelling

/-! ### What the lines introduce -/

section Order

variable {n : Naming} {known seen : List String}

open Segment

theorem JsonTable.inOrder_segments {t : JsonTable} : InOrder n known seen t.segments ↔
    ∀ source ∈ t.source, n.owner source.field ∈ known → n.owner source.field ∈ seen := by
  obtain ⟨name, source, path, columns⟩ := t
  cases source with
  | none => simp [segments]
  | some source => cases source <;> simp [segments, JsonSource.segments, JsonSource.field]

theorem introduced_flatMap {α : Type} {f : α → List Segment} {a : α → String}
    (h : ∀ x, introduced (f x) = [a x]) (l : List α) : introduced (l.flatMap f) = l.map a := by
  have hOne : (fun x => (f x).filterMap alias?) = fun x => [a x] := funext h
  rw [introduced, List.filterMap_flatMap, hOne, ← List.map_eq_flatMap]

theorem JsonTable.introduced_segments (t : JsonTable) : introduced t.segments = [t.name] := by
  obtain ⟨name, source, path, columns⟩ := t
  cases source with
  | none => rfl
  | some source => cases source <;> rfl

theorem Naming.introduced_suffixSegments (h : n.inUse = true) :
    introduced n.suffixSegments = [n.base] := by
  cases n with
  | bare => cases h
  | aliased base tables => rfl

theorem Selection.introduced_fromSegments (table : String) (s : Selection) (h : n.inUse = true) :
    introduced (s.fromSegments n table) = n.base :: s.jsonTables.map (·.name) := by
  rw [fromSegments, introduced_append, introduced_append, introduced_append,
    Naming.introduced_suffixSegments h, introduced_flatMap JsonTable.introduced_segments]
  exact List.append_nil _

theorem OnTerm.introduced_segments (name : String) (t : OnTerm) :
    introduced (t.segments name) = [] := by
  obtain ⟨field, operator, target⟩ := t
  cases target <;> cases hNull : operator.isNullTest <;> simp only [segments, hNull] <;> rfl

theorem Join.introduced_segments (j : Join) : introduced j.segments = [j.name] := by
  have hTerms : introduced (j.terms.flatMap (OnTerm.segments j.name)) = [] := by
    rw [introduced, List.filterMap_flatMap, List.flatMap_eq_nil_iff]
    exact fun t _ => t.introduced_segments j.name
  rw [segments, introduced_append, introduced_append, hTerms]
  rfl

/-! ### Their order -/

/-- Tables reserve their aliases, so none of them has one of the `joins`. -/
theorem Selection.inOrder_fromSegments {table : String} {s : Selection} {joins : List String}
    (hUse : s.jsonTables ≠ [] → n.inUse = true) (hBase : n.base ∉ joins)
    (hTables : ∀ t ∈ s.jsonTables, t.name ∉ joins) :
    InOrder n (n.base :: joins) [] (s.fromSegments n table) ↔
      ∀ t ∈ s.jsonTables, ∀ source ∈ t.source, n.owner source.field ∉ joins := by
  have hLine : InOrder n (n.base :: joins) [] (s.fromSegments n table) ↔
      InOrder n (n.base :: joins) [n.base] (s.jsonTables.flatMap JsonTable.segments) := by
    by_cases hEmpty : s.jsonTables = []
    · cases n <;> simp [fromSegments, Naming.suffixSegments, hEmpty]
    · cases n with
      | bare => cases hUse hEmpty
      | aliased base tables =>
        simp [fromSegments, Naming.suffixSegments, inOrder_append, introduced, alias?, Naming.base]
  rw [hLine, inOrder_flatMap]
  simp only [JsonTable.inOrder_segments, introduced_flatMap JsonTable.introduced_segments]
  constructor
  · intro h t ht source hSource hJoin
    obtain ⟨before, after, hSplit⟩ := List.append_of_mem ht
    have hSeen := h before t after hSplit source hSource (List.mem_cons_of_mem _ hJoin)
    rcases List.mem_cons.mp hSeen with hSame | hSeen
    · exact hBase (hSame ▸ hJoin)
    · obtain ⟨u, hu, hName⟩ := List.mem_map.mp hSeen
      exact hTables u (by rw [hSplit]; exact List.mem_append_left _ hu) (hName ▸ hJoin)
  · intro h before t after hSplit source hSource hKnown
    have ht : t ∈ s.jsonTables := by rw [hSplit]; exact List.mem_append_right _ List.mem_cons_self
    rcases List.mem_cons.mp hKnown with hSame | hJoin
    · exact List.mem_append_left _ (List.mem_singleton.mpr hSame)
    · exact absurd hJoin (h t ht source hSource)

theorem OnTerm.inOrder_segments {name : String} {t : OnTerm}
    (h : ∀ field ∈ t.foreign?, n.owner field ∈ known → n.owner field ∈ seen) :
    InOrder n known seen (t.segments name) := by
  obtain ⟨field, operator, target⟩ := t
  rw [segments, inOrder_cons_text]
  split
  · exact inOrder_nil
  · cases target with
    | field foreign => simpa [OnTarget.segments] using h foreign rfl
    | value v => simp [OnTarget.segments]

/-- A join line is in order if it names its own alias, or what is seen before. -/
theorem Join.inOrder_segments {j : Join}
    (h : ∀ field ∈ j.foreignFields, n.owner field ∈ known → n.owner field ∈ seen ++ [j.name]) :
    InOrder n known seen j.segments := by
  rw [foreignFields, List.forall_mem_cons] at h
  have hTerms : InOrder n known (seen ++ [j.name])
      (j.terms.flatMap (OnTerm.segments j.name)) := by
    refine inOrder_flatMap.mpr fun before t after hSplit => ?_
    refine OnTerm.inOrder_segments fun field hField hKnown => ?_
    have ht : t ∈ j.terms := by rw [hSplit]; exact List.mem_append_right _ List.mem_cons_self
    exact List.mem_append_left _ (h.2 field (List.mem_filterMap.mpr ⟨t, ht, hField⟩) hKnown)
  simpa [segments, inOrder_append, introduced, alias?] using ⟨by simpa using h.1, hTerms⟩

/-- Resolved joins stand behind all that they name. -/
theorem Join.inOrder_flatMap {joins resolved : List Join} {mentioned : String → Prop}
    (h : Pruned joins mentioned resolved) (hBase : n.base ∈ seen) :
    InOrder n (n.base :: joins.map name) seen (resolved.flatMap segments) := by
  refine Segment.inOrder_flatMap.mpr fun before j after hSplit => ?_
  refine inOrder_segments fun field hField hKnown => ?_
  rw [introduced_flatMap introduced_segments]
  by_cases hOwn : n.owner field = j.name
  · exact List.mem_append_right _ (List.mem_singleton.mpr hOwn)
  refine List.mem_append_left _ ?_
  by_cases hSame : n.owner field = n.base
  · exact List.mem_append_left _ (hSame ▸ hBase)
  · obtain ⟨k, hk, hName⟩ := List.mem_map.mp ((List.mem_cons.mp hKnown).resolve_left hSame)
    have hQualifier := Naming.qualifier?_of_owner hSame
    rw [← hName] at hQualifier hOwn ⊢
    have hDepends : DependsOn joins j k := ⟨hk, hOwn, field, hField, hQualifier⟩
    exact List.mem_append_right _
      (List.mem_map_of_mem (h.dependency_before before j after hSplit k hDepends))

end Order

/-! ### Selects -/

namespace Level

/-- The FROM line and the join lines of a level with this plan. -/
def segments (l : Level) (p : Plan) : List Segment :=
  l.select.selection.fromSegments p.naming l.select.source.table ++ p.joins.flatMap Join.segments

/-- The aliases of the base table and of the declared joins. -/
def declared (l : Level) (p : Plan) : List String :=
  p.naming.base :: l.select.source.joins.map Join.name

theorem inOrder_iff {l : Level} {p : Plan} (hPlan : l.select.plan l.correlation = .ok p)
    (hPrune : l.select.source.prune = true) :
    Segment.InOrder p.naming (l.declared p) [] (l.segments p) ↔
      ∀ t ∈ l.select.selection.jsonTables, ∀ source ∈ t.source,
        p.naming.owner source.field ∉ l.select.source.joins.map Join.name := by
  have hAssign := Source.assign_of_plan hPlan
  obtain ⟨⟨-, hReserved⟩, hBase, -⟩ := Naming.assign_eq_ok hAssign
  have hPruned := Source.pruned_of_plan_eq_ok (fun _ => l.select.mem_mentioned_iff) hPrune hPlan
  have hTables : ∀ t ∈ l.select.selection.jsonTables,
      t.name ∉ l.select.source.joins.map Join.name := by
    intro t ht hMem
    obtain ⟨j, hj, hName⟩ := List.mem_map.mp hMem
    exact hReserved j hj (List.mem_append_left _ (hName ▸ List.mem_map_of_mem ht))
  have hUse : l.select.selection.jsonTables ≠ [] → p.naming.inUse = true := fun hTables =>
    Naming.inUse_of_assign (.inl (by simp [hTables])) hAssign
  have hLines : Segment.InOrder p.naming (l.declared p) (Segment.introduced
      (l.select.selection.fromSegments p.naming l.select.source.table))
        (p.joins.flatMap Join.segments) := by
    by_cases hJoins : l.select.source.joins = []
    · have hEmpty : p.joins = [] := List.eq_nil_iff_forall_not_mem.mpr fun j hj =>
        absurd ((hPruned.mem_iff j).mp hj).mem (hJoins ▸ List.not_mem_nil)
      rw [hEmpty]
      exact Segment.inOrder_nil
    · refine Join.inOrder_flatMap hPruned ?_
      rw [Selection.introduced_fromSegments _ _ (Naming.inUse_of_assign (.inr hJoins) hAssign)]
      exact List.mem_cons_self
  rw [segments, Segment.inOrder_append, declared,
    Selection.inOrder_fromSegments hUse hBase hTables]
  exact and_iff_left hLines

/-- The segments spell the two kinds of lines, which stand in the text of the level. -/
theorem exists_written_eq {l : Level} {p : Plan} (hPlan : l.select.plan l.correlation = .ok p)
    (hNone : failure? l.script = none) (schema : String) :
    ∃ front back, written schema l.script
      = front ++ Segment.spelled schema p.naming (l.segments p) ++ back := by
  rw [script, Select.script_eq hPlan] at hNone ⊢
  simp only [failure?_append, Option.or_eq_none_iff] at hNone
  obtain ⟨⟨⟨⟨-, hFrom⟩, hJoins⟩, -⟩, -⟩ := hNone
  rw [segments, Segment.spelled_append, Selection.spelled_fromSegments,
    Segment.spelled_flatMap Join.spelled_segments]
  simp only [written_append, Selection.written_fromScript hFrom, Join.written_scripts_eq hJoins,
    List.append_assoc]
  exact ⟨written schema [.aliases p.naming] ++ _, _, by simp only [List.append_assoc]; rfl⟩

/-- In a select that compiles the lines of a pruned level are in order unless a JSON table reads a
field of a declared join. -/
theorem inOrder_iff_of_compile {schema : String} {s : Select} {c : Compiled} {l : Level}
    (h : (Statement.select s).compile schema = .ok c) (hIn : IsIn s l)
    (hPrune : l.select.source.prune = true) :
    ∃ p front back, l.select.plan l.correlation = .ok p ∧
      written schema l.script
        = front ++ Segment.spelled schema p.naming (l.segments p) ++ back ∧
      nestedText schema l.script <:+: c.sql.toList ∧
      (Segment.InOrder p.naming (l.declared p) [] (l.segments p) ↔
        ∀ t ∈ l.select.selection.jsonTables, ∀ source ∈ t.source,
          p.naming.owner source.field ∉ l.select.source.joins.map Join.name) := by
  obtain ⟨hNone, rfl⟩ := compile_eq_ok_iff.mp h
  obtain ⟨hLevel, hText⟩ := infix_of_isIn hNone hIn
  obtain ⟨p, hPlan, -⟩ := exists_plan hLevel
  obtain ⟨front, back, hWritten⟩ := exists_written_eq hPlan hLevel schema
  refine ⟨p, front, back, hPlan, hWritten, ?_, inOrder_iff hPlan hPrune⟩
  rw [compiled, String.toList_ofList]
  exact hText schema

end Level

/-! ### A JSON table next to a join -/

/-- Users with their profiles and with rows from the JSON document in this field. -/
def Select.withTags (source : String) (fields : List SelectField) : Select :=
  ⟨{ Source.ofTable "users" with
      joins := [⟨.left, "profiles", "p", "user_id", "id", []⟩], prune := true },
    { Selection.all with
      fields
      jsonTables := [(JsonTable.named "t").fromDocument source "$[*]"
        |>.column "name" "TEXT" "$"] },
    .any, []⟩

namespace Level

theorem inOrder_iff_of_compile_withTags :
    ∃ c p, (Statement.select (.withTags "tags" [.plain "p.city", .plain "t.name"])).compile "shop"
        = .ok c ∧
      (Select.withTags "tags" [.plain "p.city", .plain "t.name"]).plan none = .ok p ∧
      p.joins.map Join.name = ["p"] ∧
      Segment.InOrder p.naming ["u", "p"] []
        ((outermost (.withTags "tags" [.plain "p.city", .plain "t.name"])).segments p) := by
  have hPlan : (Select.withTags "tags" [.plain "p.city", .plain "t.name"]).plan none
      = .ok ⟨.aliased "u" [("t", ""), ("p", "profiles"), ("u", "users")],
          [⟨.left, "profiles", "p", "user_id", "id", []⟩]⟩ := by cbv
  have hNone : failure? ((Select.withTags "tags" [.plain "p.city", .plain "t.name"]).script none)
      = none := by
    rw [Select.failure?_script, hPlan]
    rfl
  obtain ⟨c, hCompile⟩ : ∃ c, (Statement.select
      (.withTags "tags" [.plain "p.city", .plain "t.name"])).compile "shop" = .ok c :=
    ⟨_, compile_eq_ok_iff.mpr ⟨hNone, rfl⟩⟩
  obtain ⟨p, -, -, hPlan', -, -, hOrder⟩ := inOrder_iff_of_compile hCompile .outermost rfl
  obtain rfl := Except.ok.inj (hPlan.symm.trans hPlan')
  refine ⟨c, _, hCompile, hPlan, rfl, hOrder.mpr ?_⟩
  intro t ht source hSource
  obtain rfl := List.mem_singleton.mp ht
  obtain rfl := Option.some.inj hSource
  decide

/-- The document is in a field of the join, whose line follows. -/
theorem not_inOrder_withTags :
    ∃ c p, (Statement.select (.withTags "p.tags" [.plain "id", .plain "t.name"])).compile "shop"
        = .ok c ∧
      (Select.withTags "p.tags" [.plain "id", .plain "t.name"]).plan none = .ok p ∧
      p.joins.map Join.name = ["p"] ∧
      ¬ Segment.InOrder p.naming ["u", "p"] []
        ((outermost (.withTags "p.tags" [.plain "id", .plain "t.name"])).segments p) := by
  have hPlan : (Select.withTags "p.tags" [.plain "id", .plain "t.name"]).plan none
      = .ok ⟨.aliased "u" [("t", ""), ("p", "profiles"), ("u", "users")],
          [⟨.left, "profiles", "p", "user_id", "id", []⟩]⟩ := by cbv
  have hNone : failure? ((Select.withTags "p.tags" [.plain "id", .plain "t.name"]).script none)
      = none := by
    rw [Select.failure?_script, hPlan]
    rfl
  refine ⟨_, _, compile_eq_ok_iff.mpr ⟨hNone, rfl⟩, hPlan, rfl, fun hOrder => ?_⟩
  have hSource := (inOrder_iff (l := outermost _) hPlan rfl).mp hOrder
  exact hSource _ List.mem_cons_self _ rfl (by decide)

end Level

end SqlStatement
