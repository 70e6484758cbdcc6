import SqlStatement.Proofs.Clauses

/-!
# Selects inside a select

A level is a select inside another one, with the way that leads down to it: into
the subquery of a condition, or into a JSON sub-select.  A subquery is written
on its own; a JSON sub-select is written under the aliases of the level around
it.

* `Level.IsIn`: the levels of a select.
* `Script.Encloses`: a nested script stands in parentheses in another one.
* `Level.encloses_subquery`, `Level.encloses_json`: each level stands in the one
  around it.
* `Level.infix_of_isIn`: in a select without errors no level has one, and each
  stands in the text.
-/

namespace SqlStatement

open Script

/-! ### Nested scripts -/

namespace Script

/-- The text of a nested script: what is left of it without the line breaks at its end. -/
def nestedText (schema : String) (body : Script) : List Char :=
  Text.dropEndWhile (· == '\n') (written schema body)

/-- `body` stands in `s`, in parentheses. -/
structure Encloses (s body : Script) : Prop where
  failure?_eq_none : failure? s = none → failure? body = none
  infix_written : ∀ schema, '(' :: nestedText schema body ++ [')'] <:+: written schema s

theorem Encloses.within {a s body : Script} (h : Encloses a body) (hInfix : a <:+: s) :
    Encloses s body := by
  obtain ⟨before, after, rfl⟩ := hInfix
  constructor
  · intro hNone
    rw [failure?_append, failure?_append, Option.or_eq_none_iff, Option.or_eq_none_iff] at hNone
    exact h.failure?_eq_none hNone.1.2
  · intro schema
    refine (h.infix_written schema).trans ?_
    rw [written_append, written_append]
    exact List.infix_append _ _ _

/-- The opening parenthesis may end a longer text. -/
theorem encloses_parenthesised {front : String} {before : List Char} (body : Script)
    (h : front.toList = before ++ ['(']) :
    Encloses [.text front, .nested body, .text ")"] body := by
  constructor
  · intro hNone
    simpa using hNone
  · intro schema
    refine ⟨before, [], ?_⟩
    simp [nestedText, h]

theorem infix_cons_append (p : Piece) (s after : Script) : s <:+: p :: s ++ after :=
  ⟨[p], after, rfl⟩

theorem infix_joined (separator : String) : ∀ {scripts : List Script} {s : Script}, s ∈ scripts →
    s <:+: joined separator scripts
  | [a], s, h => by
    rw [joined_singleton]
    exact List.mem_singleton.mp h ▸ List.infix_rfl
  | a :: b :: rest, s, h => by
    rw [joined_cons_cons]
    rcases List.mem_cons.mp h with rfl | h
    · exact (List.prefix_append _ _).isInfix
    · refine (infix_joined separator h).trans ?_
      exact ((List.suffix_cons _ _).trans (List.suffix_append _ _)).isInfix

/-- Dropping line breaks at the end takes nothing away that ends in front of them. -/
theorem infix_dropEndWhile {t l : List Char} (h : t ++ [')'] <:+: l) :
    t ++ [')'] <:+: Text.dropEndWhile (· == '\n') l := by
  obtain ⟨before, after, rfl⟩ := h
  rw [← List.append_assoc before t, Text.dropEndWhile_concat_append _ _ (by decide),
    List.append_assoc before t]
  exact List.infix_append _ _ _

theorem Encloses.infix_nestedText {s body : Script} (h : Encloses s body) (schema : String) :
    '(' :: nestedText schema body ++ [')'] <:+: nestedText schema s :=
  infix_dropEndWhile (h.infix_written schema)

theorem Encloses.infix_body {s body : Script} (h : Encloses s body) (schema : String) :
    nestedText schema body <:+: nestedText schema s :=
  List.IsInfix.trans ⟨['('], [')'], rfl⟩ (h.infix_nestedText schema)

end Script

/-! ### Subqueries of a filter -/

/-- A condition of the filter, at any depth, asks for membership in this select. -/
inductive Filter.HasQuery : Filter → Select → Prop
  | condition {f : Filter} {field : String} {query : Select} :
      ⟨field, .inSubquery query⟩ ∈ f.conditions → Filter.HasQuery f query
  | wrapped {f w : Filter} {query : Select} : f.wrapped = some w → Filter.HasQuery w query →
      Filter.HasQuery f query
  | group {f g : Filter} {query : Select} : g ∈ f.groups → Filter.HasQuery g query →
      Filter.HasQuery f query

namespace Filter

variable {n : Naming}

theorem mem_conditionScripts {field : String} {test : Test} {conditions : List Condition}
    (h : ⟨field, test⟩ ∈ conditions) :
    Test.script n field test ∈ conditionScripts n conditions := by
  induction conditions with
  | nil => exact absurd h List.not_mem_nil
  | cons c rest ih =>
    obtain ⟨other, test'⟩ := c
    rw [conditionScripts]
    rcases List.mem_cons.mp h with he | h
    · cases he
      exact List.mem_cons_self
    · exact List.mem_cons_of_mem _ (ih h)

/-- What a group adds stands in its parentheses. -/
theorem exists_infix_groupTerms {g : Filter} {s : Script} {groups : List Filter}
    (hGroup : g ∈ groups) (h : s ∈ alternatives n g) :
    ∃ term ∈ groupTerms n groups, s <:+: term := by
  induction groups with
  | nil => exact absurd hGroup List.not_mem_nil
  | cons f rest ih =>
    rw [groupTerms]
    rcases List.mem_cons.mp hGroup with rfl | hGroup
    · cases hAll : alternatives n g with
      | nil => rw [hAll] at h; exact absurd h List.not_mem_nil
      | cons a more =>
        refine ⟨.text "(" :: joined " OR " (a :: more) ++ [.text ")"], ?_, ?_⟩
        · exact List.mem_append_left _ List.mem_cons_self
        · exact (infix_joined " OR " (hAll ▸ h)).trans (infix_cons_append _ _ _)
    · obtain ⟨term, hTerm, hInfix⟩ := ih hGroup
      exact ⟨term, List.mem_append_right _ hTerm, hInfix⟩

theorem encloses_inSubquery (field : String) (query : Select) :
    Encloses (Test.script n field (.inSubquery query)) (query.script none) := by
  have hFront : (n.qualify field ++ Operator.inSubquery.fragment ++ " (").toList
      = (n.qualify field).toList ++ [' ', 'I', 'N', ' '] ++ ['('] := by
    simp [Operator.fragment]
  rw [Test.script]
  exact encloses_parenthesised _ hFront

/-- A subquery below a group stands in one of its alternatives. -/
theorem exists_mem_alternatives {f : Filter} {query : Select} (h : f.HasQuery query) :
    ∃ s ∈ alternatives n f, Encloses s (query.script none) := by
  induction h with
  | @condition f field query h =>
    rw [alternatives_eq]
    refine ⟨Test.script n field (.inSubquery query), ?_, ?_⟩
    · exact List.mem_append_left _ (List.mem_append_right _ (mem_conditionScripts h))
    · exact encloses_inSubquery field query
  | wrapped h _ ih =>
    obtain ⟨s, hs, hEncloses⟩ := ih
    rw [alternatives_eq, h]
    exact ⟨s, by simp [hs], hEncloses⟩
  | group h _ ih =>
    obtain ⟨s, hs, hEncloses⟩ := ih
    obtain ⟨term, hTerm, hInfix⟩ := exists_infix_groupTerms h hs
    rw [alternatives_eq]
    exact ⟨term, List.mem_append_right _ hTerm, hEncloses.within hInfix⟩

/-- A subquery of a clause without errors stands in one of its terms. -/
theorem exists_mem_terms {f : Filter} {query : Select} (h : f.HasQuery query)
    (hNone : (terms n f).findSome? failure? = none) :
    ∃ s ∈ terms n f, Encloses s (query.script none) := by
  induction h with
  | @condition f field query h =>
    rw [terms_eq, List.findSome?_append, List.findSome?_append, Option.or_eq_none_iff,
      Option.or_eq_none_iff] at hNone
    rw [terms_eq]
    refine ⟨Test.script n field (.inSubquery query), ?_, ?_⟩
    · rw [conditionTerms_eq hNone.1.2]
      exact List.mem_append_left _ (List.mem_append_right _ (mem_conditionScripts h))
    · exact encloses_inSubquery field query
  | @wrapped f w query h _ ih =>
    rw [terms_eq, h, List.findSome?_append, List.findSome?_append, Option.or_eq_none_iff,
      Option.or_eq_none_iff] at hNone
    obtain ⟨s, hs, hEncloses⟩ := ih (by simpa using hNone.1.1)
    rw [terms_eq, h]
    exact ⟨s, by simp [hs], hEncloses⟩
  | group h hBelow _ =>
    obtain ⟨s, hs, hEncloses⟩ := exists_mem_alternatives hBelow
    obtain ⟨term, hTerm, hInfix⟩ := exists_infix_groupTerms h hs
    rw [terms_eq]
    exact ⟨term, List.mem_append_right _ hTerm, hEncloses.within hInfix⟩

end Filter

/-! ### Selects directly inside a select -/

theorem infix_whereScript {n : Naming} {correlation : Option Correlation} {row : Option UInt64}
    {terms : List Script} {s : Script} (h : s ∈ terms) :
    s <:+: whereScript n correlation row terms := by
  have hMem : s ∈ whereTerms n correlation row terms := List.mem_append_right _ h
  rw [whereScript_eq, if_neg (List.ne_nil_of_mem hMem)]
  exact (infix_joined " AND " hMem).trans (infix_cons_append _ _ _)

/-- The first line of a select: its rows as objects if it is correlated, as columns if not. -/
def Selection.headScript (correlated : Bool) (n : Naming) (s : Selection)
    (json : List NamedScript) : Script :=
  if correlated then s.objectScript n json else s.listScript n json

theorem Selection.infix_headScript (correlated : Bool) (n : Naming) (s : Selection)
    {json : List NamedScript} {j : NamedScript} (h : j ∈ json) :
    j.body <:+: s.headScript correlated n json := by
  cases correlated with
  | true =>
    have hMem : .text (key j.name) :: j.body ∈ s.members n json :=
      List.mem_append_right _ (List.mem_map_of_mem h)
    exact (List.suffix_cons _ _).isInfix.trans
      ((infix_joined ", " hMem).trans (infix_cons_append _ _ _))
  | false =>
    have hMem : j.body ++ [.text (" " ++ j.name)] ∈ s.items n json :=
      List.mem_append_right _ (List.mem_map_of_mem h)
    have hItems : (s.items n json).isEmpty = false := by
      simpa using List.ne_nil_of_mem hMem
    have hHead : s.headScript false n json
        = .text (if s.distinct then "SELECT DISTINCT " else "SELECT ")
          :: joined ", " (s.items n json) ++ [.text "\n"] := by
      simp [headScript, listScript, hItems]
    rw [hHead]
    exact (List.prefix_append _ _).isInfix.trans
      ((infix_joined ", " hMem).trans (infix_cons_append _ _ _))

/-- What ties a JSON sub-select to a level with these aliases. -/
def JsonSelect.tie (n : Naming) (sub : JsonSelect) : Correlation :=
  ⟨n.aliases, sub.inner, n.qualify sub.outer⟩

theorem JsonSelect.scripts_eq_map (n : Naming) (json : List JsonSelect) :
    JsonSelect.scripts n json = json.map (JsonSelect.script n) := by
  induction json with
  | nil => rfl
  | cons j rest ih => rw [scripts, ih, List.map_cons]

theorem JsonSelect.mem_scripts {n : Naming} {sub : JsonSelect} {json : List JsonSelect}
    (h : sub ∈ json) : sub.script n ∈ JsonSelect.scripts n json :=
  scripts_eq_map n json ▸ List.mem_map_of_mem h

/-- A JSON sub-select with two members is the tied select in parentheses. -/
theorem JsonSelect.encloses_script {n : Naming} {sub : JsonSelect}
    (h : failure? (sub.script n).body = none) :
    Encloses (sub.script n).body (sub.query.script (some (sub.tie n))) := by
  obtain ⟨name, query, inner, outer⟩ := sub
  rw [JsonSelect.script] at h ⊢
  by_cases hWidth : query.width < 2
  · simp [hWidth] at h
  · have hFront : "(".toList = [] ++ ['('] := by simp
    rw [if_neg hWidth]
    exact encloses_parenthesised _ hFront

namespace Select

/-- The clauses of a select that has a plan. -/
theorem script_eq {s : Select} {correlation : Option Correlation} {p : Plan}
    (h : s.plan correlation = .ok p) :
    s.script correlation = [.aliases p.naming]
      ++ s.selection.headScript correlation.isSome p.naming (JsonSelect.scripts p.naming s.json)
      ++ s.selection.fromScript p.naming s.source.table ++ Join.scripts p.naming p.joins
      ++ whereScript p.naming correlation s.source.row (s.filter.terms p.naming)
      ++ s.selection.tailScript p.naming := by
  obtain ⟨source, selection, filter, json⟩ := s
  rw [script, h, Selection.headScript]
  rfl

theorem exists_plan {s : Select} {correlation : Option Correlation}
    (h : failure? (s.script correlation) = none) : ∃ p, s.plan correlation = .ok p := by
  rw [failure?_script] at h
  cases hPlan : s.plan correlation with
  | error e => rw [hPlan] at h; cases h
  | ok p => exact ⟨p, rfl⟩

theorem encloses_query {s query : Select} {correlation : Option Correlation}
    (h : failure? (s.script correlation) = none) (hQuery : s.filter.HasQuery query) :
    Encloses (s.script correlation) (query.script none) := by
  obtain ⟨p, hPlan⟩ := exists_plan h
  rw [failure?_script, hPlan] at h
  simp only [Option.or_eq_none_iff] at h
  obtain ⟨term, hTerm, hEncloses⟩ := Filter.exists_mem_terms hQuery h.2.2.2
  refine hEncloses.within ?_
  rw [script_eq hPlan]
  exact (infix_whereScript hTerm).trans (List.infix_append _ _ _)

theorem encloses_json {s : Select} {correlation : Option Correlation} {p : Plan}
    (hPlan : s.plan correlation = .ok p) (h : failure? (s.script correlation) = none)
    {sub : JsonSelect} (hSub : sub ∈ s.json) :
    Encloses (s.script correlation) (sub.query.script (some (sub.tie p.naming))) := by
  rw [failure?_script, hPlan] at h
  simp only [Option.or_eq_none_iff] at h
  have hMem := JsonSelect.mem_scripts (n := p.naming) hSub
  have hBody : failure? (sub.script p.naming).body = none :=
    List.findSome?_eq_none_iff.mp h.1 _ hMem
  refine (JsonSelect.encloses_script hBody).within ?_
  rw [script_eq hPlan]
  simp only [List.append_assoc]
  exact (Selection.infix_headScript correlation.isSome p.naming s.selection hMem).trans
    (List.infix_append' _ _ _)

end Select

/-! ### Levels -/

/-- A select with the way that leads down to it from the outermost one. -/
inductive Level
  | outermost (s : Select)
  | subquery (around : Level) (query : Select)
  | json (around : Level) (sub : JsonSelect)

namespace Level

def select : Level → Select
  | .outermost s => s
  | .subquery _ query => query
  | .json _ sub => sub.query

/-- The levels of `s`. -/
inductive IsIn (s : Select) : Level → Prop
  | outermost : IsIn s (.outermost s)
  | subquery {around : Level} {query : Select} : IsIn s around →
      around.select.filter.HasQuery query → IsIn s (.subquery around query)
  | json {around : Level} {sub : JsonSelect} : IsIn s around → sub ∈ around.select.json →
      IsIn s (.json around sub)

/-- The aliases of a select, none if it has no plan. -/
def namingOf (correlation : Option Correlation) (s : Select) : Naming :=
  match s.plan correlation with
  | .error _ => .bare
  | .ok p => p.naming

def naming : Level → Naming
  | .outermost s => namingOf none s
  | .subquery _ query => namingOf none query
  | .json around sub => namingOf (some (sub.tie around.naming)) sub.query

/-- What a level is tied to: a JSON sub-select to the level around it, all others to nothing. -/
def correlation : Level → Option Correlation
  | .outermost _ | .subquery _ _ => none
  | .json around sub => some (sub.tie around.naming)

theorem naming_eq (l : Level) : l.naming = namingOf l.correlation l.select := by
  cases l <;> rfl

def script (l : Level) : Script := l.select.script l.correlation

/-- The aliases of a planned level. -/
theorem naming_of_plan {l : Level} {p : Plan} (h : l.select.plan l.correlation = .ok p) :
    l.naming = p.naming := by
  rw [naming_eq, namingOf, h]

/-- A level without errors has a plan, and its aliases are those of the plan. -/
theorem exists_plan {l : Level} (h : failure? l.script = none) :
    ∃ p, l.select.plan l.correlation = .ok p ∧ p.naming = l.naming := by
  obtain ⟨p, hPlan⟩ := Select.exists_plan h
  exact ⟨p, hPlan, (naming_of_plan hPlan).symm⟩

theorem encloses_subquery {around : Level} {query : Select} (h : failure? around.script = none)
    (hQuery : around.select.filter.HasQuery query) :
    Encloses around.script (subquery around query).script :=
  Select.encloses_query h hQuery

theorem encloses_json {around : Level} {sub : JsonSelect} (h : failure? around.script = none)
    (hSub : sub ∈ around.select.json) : Encloses around.script (json around sub).script := by
  obtain ⟨p, hPlan, hNaming⟩ := exists_plan h
  have hScript : (json around sub).script = sub.query.script (some (sub.tie p.naming)) := by
    rw [hNaming]
    rfl
  rw [hScript]
  exact Select.encloses_json hPlan h hSub

/-- In a select without errors no level has one, and each stands in its text. -/
theorem infix_of_isIn {s : Select} {l : Level} (hNone : failure? (s.script none) = none)
    (h : IsIn s l) : failure? l.script = none ∧
      ∀ schema, nestedText schema l.script <:+: nestedText schema (s.script none) := by
  induction h with
  | outermost => exact ⟨hNone, fun _ => List.infix_rfl⟩
  | subquery _ hQuery ih =>
    have hEncloses := encloses_subquery ih.1 hQuery
    exact ⟨hEncloses.failure?_eq_none ih.1,
      fun schema => (hEncloses.infix_body schema).trans (ih.2 schema)⟩
  | json _ hSub ih =>
    have hEncloses := encloses_json ih.1 hSub
    exact ⟨hEncloses.failure?_eq_none ih.1,
      fun schema => (hEncloses.infix_body schema).trans (ih.2 schema)⟩

end Level

end SqlStatement
