import Mathlib.Data.List.Basic
import SqlStatement.Proofs.Aliases
import SqlStatement.Proofs.Clauses

/-!
# Respelled foreign fields

A function on fields is carried out on the foreign side of ON clauses.  It leaves
alone what a plan reads of a join: its alias, its table and its mode, and, if it
changes no qualifier but that of the base table, the joins it depends on.  So the
plan of the respelled joins is the plan of the joins, respelled.

* `Field.KeepsOwners`: the function changes no qualifier but that of the base
  table.
* `Naming.assign_mapForeign`: the aliases stay.
* `Join.resolve_mapForeign`: resolving goes step by step with the function.
* `Source.plan_mapForeign`: so does planning.
-/

namespace SqlStatement

/-! ### Qualifiers -/

/-- Up to the alias `base`, a field and its image have the same qualifier. -/
def Field.KeepsOwners (base : String) (g : String → String) : Prop :=
  ∀ field, (qualifier? (g field)).filter (· != base) = (qualifier? field).filter (· != base)

theorem Field.KeepsOwners.qualifiers {base : String} {g : String → String}
    (h : KeepsOwners base g) (fields : List String) :
    (qualifiers (fields.map g)).filter (· != base) = (qualifiers fields).filter (· != base) := by
  rw [Field.qualifiers, Field.qualifiers, List.filter_filterMap, List.filter_filterMap,
    List.filterMap_map]
  exact List.filterMap_congr fun field _ => h field

/-! ### Joins -/

variable (g : String → String)

def OnTarget.mapForeign : OnTarget → OnTarget
  | .field foreign => .field (g foreign)
  | .value v => .value v

def OnTerm.mapForeign (t : OnTerm) : OnTerm := { t with target := t.target.mapForeign g }

def Join.mapForeign (j : Join) : Join :=
  { j with foreign := g j.foreign, terms := j.terms.map (OnTerm.mapForeign g) }

def Source.mapForeign (s : Source) : Source := { s with joins := s.joins.map (Join.mapForeign g) }

@[simp] theorem Join.name_mapForeign (j : Join) : (j.mapForeign g).name = j.name := rfl

theorem OnTerm.foreign?_mapForeign (t : OnTerm) :
    (t.mapForeign g).foreign? = t.foreign?.map g := by
  obtain ⟨field, operator, target⟩ := t
  cases target <;> rfl

theorem Join.foreignFields_mapForeign (j : Join) :
    (j.mapForeign g).foreignFields = j.foreignFields.map g := by
  have hTerms : (j.terms.map (OnTerm.mapForeign g)).filterMap OnTerm.foreign?
      = (j.terms.filterMap OnTerm.foreign?).map g := by
    rw [List.filterMap_map, List.map_filterMap]
    exact List.filterMap_congr fun t _ => t.foreign?_mapForeign g
  rw [foreignFields, foreignFields, List.map_cons, ← hTerms]
  rfl

/-! ### Aliases -/

theorem Naming.claim_mapForeign : ∀ (joins : List Join) (taken : List (String × String)),
    claim taken (joins.map (Join.mapForeign g)) = claim taken joins
  | [], _ => rfl
  | j :: rest, taken => by
    rw [List.map_cons, claim, claim, claim_mapForeign rest]
    rfl

theorem Naming.assign_mapForeign (table : String) (requested : Option String) (joins : List Join)
    (force : Bool) (reserved : List String) :
    assign table requested (joins.map (Join.mapForeign g)) force reserved
      = assign table requested joins force reserved := by
  rw [assign, assign, claim_mapForeign, List.isEmpty_map]

/-! ### Resolving -/

namespace Join

variable {g} {base : String}

theorem any_name_mapForeign (joins : List Join) (a : String) :
    (joins.map (mapForeign g)).any (·.name == a) = joins.any (·.name == a) := by
  rw [List.any_map]
  rfl

/-- The declared joins among the references, the base table apart. -/
theorem dependencies_eq (joins : List Join) (base : String) (j : Join) :
    dependencies joins base j = ((Field.qualifiers j.foreignFields).filter (· != base)).filter
      fun a => a != j.name && joins.any (·.name == a) := by
  rw [dependencies, references, List.filter_filter, List.filter_filter]
  refine List.filter_congr fun a _ => ?_
  cases a != base <;> cases a != j.name <;> simp

variable (h : Field.KeepsOwners base g)

include h

theorem dependencies_mapForeign (joins : List Join) (j : Join) :
    dependencies (joins.map (mapForeign g)) base (j.mapForeign g) = dependencies joins base j := by
  rw [dependencies_eq, dependencies_eq, foreignFields_mapForeign, h.qualifiers]
  simp only [any_name_mapForeign, name_mapForeign]

theorem grow_mapForeign (joins kept : List Join) :
    grow (joins.map (mapForeign g)) base (kept.map (mapForeign g))
      = (grow joins base kept).map (mapForeign g) := by
  rw [grow, grow, List.filter_map]
  congr 1
  refine List.filter_congr fun j _ => ?_
  simp only [Function.comp_def, List.any_map, name_mapForeign, dependencies_mapForeign h]

theorem repeat_grow_mapForeign (joins kept : List Join) : ∀ n : Nat,
    Nat.repeat (grow (joins.map (mapForeign g)) base) n (kept.map (mapForeign g))
      = (Nat.repeat (grow joins base) n kept).map (mapForeign g)
  | 0 => rfl
  | n + 1 => by
    rw [Nat.repeat, Nat.repeat, repeat_grow_mapForeign joins kept n, grow_mapForeign h]

omit h in
theorem byAlias_mapForeign (joins : List Join) :
    byAlias (joins.map (mapForeign g)) = (byAlias joins).map (mapForeign g) :=
  (List.map_mergeSort (f := mapForeign g) fun _ _ _ _ => rfl).symm

theorem survivors_mapForeign {joins : List Join} {referenced referenced' : List String}
    (hNames : ∀ j ∈ joins, referenced'.contains j.name = referenced.contains j.name) :
    survivors (joins.map (mapForeign g)) base referenced'
      = (survivors joins base referenced).map (mapForeign g) := by
  have hNamed : ((byAlias joins).map (mapForeign g)).filter (referenced'.contains ·.name)
      = ((byAlias joins).filter (referenced.contains ·.name)).map (mapForeign g) := by
    rw [List.filter_map]
    congr 1
    exact List.filter_congr fun j hj => hNames j (List.mem_mergeSort.mp hj)
  rw [survivors, survivors, byAlias_mapForeign, hNamed, List.length_map, repeat_grow_mapForeign h]

omit h in
/-- A round reads of a join only its alias and what it depends on. -/
theorem round_mapForeign {dependenciesOf dependenciesOf' : Join → List String}
    (hDependencies : ∀ j, dependenciesOf' (j.mapForeign g) = dependenciesOf j) (kept : List Join)
    (d : Depths) :
    round dependenciesOf' (kept.map (mapForeign g)) d = round dependenciesOf kept d := by
  rw [round, round, List.foldl_map]
  congr 1
  funext state j
  rw [settle, settle, hDependencies, name_mapForeign]

omit h in
theorem relax_mapForeign {dependenciesOf dependenciesOf' : Join → List String}
    (hDependencies : ∀ j, dependenciesOf' (j.mapForeign g) = dependenciesOf j) (kept : List Join) :
    ∀ (n : Nat) (d : Depths),
      relax dependenciesOf' (kept.map (mapForeign g)) n d = relax dependenciesOf kept n d
  | 0, d => by rw [relax, relax, round_mapForeign hDependencies]
  | n + 1, d => by
    rw [relax, relax, round_mapForeign hDependencies]
    simp only [relax_mapForeign hDependencies kept n]

theorem resolve_mapForeign {joins : List Join} {referenced referenced' : List String}
    (hNames : ∀ j ∈ joins, referenced'.contains j.name = referenced.contains j.name) :
    resolve (joins.map (mapForeign g)) base referenced'
      = (resolve joins base referenced).map (List.map (mapForeign g)) := by
  simp only [resolve, survivors_mapForeign h hNames, List.length_map, List.map_map]
  rw [relax_mapForeign (dependencies_mapForeign h joins)]
  have hDepths : (fun j => (j.name, 0)) ∘ mapForeign g = fun j => (j.name, 0) := rfl
  rw [hDepths]
  cases relax (dependencies joins base) (survivors joins base referenced) joins.length
      ((survivors joins base referenced).map fun j => (j.name, 0)) with
  | error e => rfl
  | ok d =>
    exact congrArg Except.ok (List.map_mergeSort (f := mapForeign g) fun _ _ _ _ => rfl).symm

end Join

/-! ### Planning -/

def Plan.mapForeign (p : Plan) : Plan := ⟨p.naming, p.joins.map (Join.mapForeign g)⟩

/-- No join has the alias of the base table, so it makes no difference whether that is named. -/
theorem Source.plan_mapForeign {s : Source} {force : Bool} {reserved mentioned : List String}
    {p : Plan} (hPlan : s.plan force reserved mentioned = .ok p)
    (h : Field.KeepsOwners p.naming.base g) :
    (s.mapForeign g).plan force reserved (mentioned.map g) = .ok (p.mapForeign g) := by
  have hAssign := Source.assign_of_plan hPlan
  have hBase := (Naming.assign_eq_ok hAssign).2.1
  have hNames : ∀ j ∈ s.joins, (Field.qualifiers (mentioned.map g)).contains j.name
      = (Field.qualifiers mentioned).contains j.name := by
    intro j hj
    have hOther : (j.name != p.naming.base) = true :=
      bne_iff_ne.mpr fun hSame => hBase (hSame ▸ List.mem_map_of_mem hj)
    have hMem : ∀ l : List String, j.name ∈ l ↔ j.name ∈ l.filter (· != p.naming.base) := by
      intro l
      rw [List.mem_filter, hOther, and_iff_left rfl]
    rw [Bool.eq_iff_iff, List.contains_iff_mem, List.contains_iff_mem, hMem, h.qualifiers, ← hMem]
  obtain ⟨n, chosen⟩ := p
  simp only [plan, hAssign] at hPlan
  simp only [plan, mapForeign, Naming.assign_mapForeign, hAssign, List.isEmpty_map]
  by_cases hPrune : (s.prune && !s.joins.isEmpty) = true
  · rw [if_pos hPrune] at hPlan ⊢
    rw [Join.resolve_mapForeign h hNames]
    cases hResolve : Join.resolve s.joins n.base (Field.qualifiers mentioned) with
    | error e => rw [hResolve] at hPlan; cases hPlan
    | ok joins =>
      rw [hResolve] at hPlan
      obtain rfl := (Plan.mk.inj (Except.ok.inj hPlan)).2
      rfl
  · rw [if_neg hPrune] at hPlan ⊢
    obtain rfl := (Plan.mk.inj (Except.ok.inj hPlan)).2
    rfl

end SqlStatement
