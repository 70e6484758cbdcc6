import SqlStatement.Proofs.BoundValues
import SqlStatement.Proofs.WhereFormula

/-!
# What a filter means

The meaning of a filter is said on its tree: the clause it wraps, all conditions
of its own, and at least one condition of each of its groups.  How deep the
conditions of a group lie makes no difference, and a group without conditions
asks for nothing.

* `Filter.occurrences`: the conditions of a filter from left to right.
* `Filter.holds`: the meaning, given a truth value for each of them.
* `Filter.factors`: the formulas of the terms of a filter, a group that has any
  conditions being one disjunction.
* `Filter.predicates_factors`: their predicates are the conditions, in order.
* `Filter.anyHolds_alternativeFactors`: a group holds as soon as one condition in
  it does.
* `Filter.allHold_factors`: the formulas together say what the filter means.
-/

namespace SqlStatement

open Reading

/-! ### The meaning of a filter -/

mutual

def Filter.occurrences : Filter → List Condition
  | ⟨none, conditions, groups⟩ => conditions ++ Filter.groupOccurrences groups
  | ⟨some wrapped, conditions, groups⟩ =>
    Filter.occurrences wrapped ++ conditions ++ Filter.groupOccurrences groups

def Filter.groupOccurrences : List Filter → List Condition
  | [] => []
  | group :: rest => Filter.occurrences group ++ Filter.groupOccurrences rest

end

namespace Filter

/-- A condition of each group holds, unless the group has none; the first one is number `k`. -/
def groupsHold (truth : Nat → Bool) (k : Nat) : List Filter → Bool
  | [] => true
  | group :: rest =>
    (group.occurrences.isEmpty || (List.range' k group.occurrences.length).any truth)
      && groupsHold truth (k + group.occurrences.length) rest

/-- The meaning of a filter whose first condition is number `k`. -/
def holds (truth : Nat → Bool) (k : Nat) : Filter → Bool
  | ⟨none, conditions, groups⟩ =>
    (List.range' k conditions.length).all truth && groupsHold truth (k + conditions.length) groups
  | ⟨some wrapped, conditions, groups⟩ =>
    holds truth k wrapped
      && (List.range' (k + wrapped.occurrences.length) conditions.length).all truth
      && groupsHold truth (k + wrapped.occurrences.length + conditions.length) groups

end Filter

/-! ### Its formulas -/

/-- A condition as it is written. -/
def Condition.predicate (n : Naming) (c : Condition) : Predicate :=
  .test (n.qualify c.field) c.operator (Test.boundValues c.test).length

/-- The disjunction of all alternatives, if there are any. -/
def Reading.Formula.disjunction? : List Formula → Option Formula
  | [] => none
  | a :: as => some (as.foldl .either a)

mutual

def Filter.factors (n : Naming) : Filter → List Formula
  | ⟨none, conditions, groups⟩ =>
    conditions.map (fun c => .predicate (c.predicate n)) ++ Filter.groupFactors n groups
  | ⟨some wrapped, conditions, groups⟩ =>
    Filter.factors n wrapped ++ conditions.map (fun c => .predicate (c.predicate n))
      ++ Filter.groupFactors n groups

def Filter.groupFactors (n : Naming) : List Filter → List Formula
  | [] => []
  | group :: rest =>
    (Formula.disjunction? (Filter.alternativeFactors n group)).toList ++ Filter.groupFactors n rest

def Filter.alternativeFactors (n : Naming) : Filter → List Formula
  | ⟨none, conditions, groups⟩ =>
    conditions.map (fun c => .predicate (c.predicate n)) ++ Filter.groupFactors n groups
  | ⟨some wrapped, conditions, groups⟩ =>
    Filter.alternativeFactors n wrapped ++ conditions.map (fun c => .predicate (c.predicate n))
      ++ Filter.groupFactors n groups

end

namespace Reading.Formula

variable (n : Naming)

theorem predicates_disjunction? (as : List Formula) :
    (disjunction? as).toList.flatMap predicates = as.flatMap predicates := by
  cases as with
  | nil => rfl
  | cons a as => simp [disjunction?, predicates_foldl_either]

theorem predicates_conditions (conditions : List Condition) :
    (conditions.map fun c => predicate (c.predicate n)).flatMap predicates
      = conditions.map (·.predicate n) := by
  simp [List.flatMap_map, predicates, ← List.map_eq_flatMap]

theorem sizes_conditions (conditions : List Condition) :
    sizes (conditions.map fun c => predicate (c.predicate n)) = conditions.length := by
  rw [sizes, predicates_conditions, List.length_map]

theorem allHold_conditions (truth : Nat → Bool) (k : Nat) (conditions : List Condition) :
    allHold truth k (conditions.map fun c => predicate (c.predicate n))
      = (List.range' k conditions.length).all truth := by
  induction conditions generalizing k with
  | nil => rfl
  | cons c rest ih => simp [allHold, ih, value, size, predicates, List.range'_succ]

theorem anyHolds_conditions (truth : Nat → Bool) (k : Nat) (conditions : List Condition) :
    anyHolds truth k (conditions.map fun c => predicate (c.predicate n))
      = (List.range' k conditions.length).any truth := by
  induction conditions generalizing k with
  | nil => rfl
  | cons c rest ih => simp [anyHolds, ih, value, size, predicates, List.range'_succ]

end Reading.Formula

section

variable (n : Naming)

mutual

theorem Filter.predicates_factors : ∀ f : Filter,
    (f.factors n).flatMap Formula.predicates = f.occurrences.map (·.predicate n)
  | ⟨none, conditions, groups⟩ => by
    rw [Filter.factors, Filter.occurrences, List.flatMap_append, Formula.predicates_conditions,
      Filter.predicates_groupFactors groups, List.map_append]
  | ⟨some wrapped, conditions, groups⟩ => by
    rw [Filter.factors, Filter.occurrences, List.flatMap_append, List.flatMap_append,
      Filter.predicates_factors wrapped, Formula.predicates_conditions,
      Filter.predicates_groupFactors groups, List.map_append, List.map_append]

theorem Filter.predicates_groupFactors : ∀ groups : List Filter,
    (Filter.groupFactors n groups).flatMap Formula.predicates
      = (Filter.groupOccurrences groups).map (·.predicate n)
  | [] => rfl
  | group :: rest => by
    rw [Filter.groupFactors, Filter.groupOccurrences, List.flatMap_append,
      Formula.predicates_disjunction?, Filter.predicates_alternativeFactors group,
      Filter.predicates_groupFactors rest, List.map_append]

theorem Filter.predicates_alternativeFactors : ∀ f : Filter,
    (f.alternativeFactors n).flatMap Formula.predicates = f.occurrences.map (·.predicate n)
  | ⟨none, conditions, groups⟩ => by
    rw [Filter.alternativeFactors, Filter.occurrences, List.flatMap_append,
      Formula.predicates_conditions, Filter.predicates_groupFactors groups, List.map_append]
  | ⟨some wrapped, conditions, groups⟩ => by
    rw [Filter.alternativeFactors, Filter.occurrences, List.flatMap_append, List.flatMap_append,
      Filter.predicates_alternativeFactors wrapped, Formula.predicates_conditions,
      Filter.predicates_groupFactors groups, List.map_append, List.map_append]

end

namespace Filter

theorem sizes_factors (f : Filter) : Formula.sizes (f.factors n) = f.occurrences.length := by
  rw [Formula.sizes, predicates_factors, List.length_map]

theorem sizes_alternativeFactors (f : Filter) :
    Formula.sizes (f.alternativeFactors n) = f.occurrences.length := by
  rw [Formula.sizes, predicates_alternativeFactors, List.length_map]

theorem sizes_disjunction? (f : Filter) :
    Formula.sizes (Formula.disjunction? (f.alternativeFactors n)).toList
      = f.occurrences.length := by
  rw [Formula.sizes, Formula.predicates_disjunction?, predicates_alternativeFactors,
    List.length_map]

end Filter

theorem any_range'_append (truth : Nat → Bool) (k a b : Nat) :
    (List.range' k (a + b)).any truth
      = ((List.range' k a).any truth || (List.range' (k + a) b).any truth) := by
  rw [← List.range'_append_1, List.any_append]

variable (truth : Nat → Bool)

mutual

/-- Among alternatives all conditions count alike, however deep they lie. -/
theorem Filter.anyHolds_alternativeFactors : ∀ (f : Filter) (k : Nat),
    Formula.anyHolds truth k (f.alternativeFactors n)
      = (List.range' k f.occurrences.length).any truth
  | ⟨none, conditions, groups⟩, k => by
    rw [Filter.alternativeFactors, Filter.occurrences, Formula.anyHolds_append,
      Formula.anyHolds_conditions, Formula.sizes_conditions,
      Filter.anyHolds_groupFactors groups, List.length_append, any_range'_append]
  | ⟨some wrapped, conditions, groups⟩, k => by
    rw [Filter.alternativeFactors, Filter.occurrences, Formula.anyHolds_append,
      Formula.anyHolds_append, Filter.anyHolds_alternativeFactors wrapped,
      Formula.anyHolds_conditions, Formula.sizes_append, Filter.sizes_alternativeFactors,
      Formula.sizes_conditions, Filter.anyHolds_groupFactors groups, List.length_append,
      List.length_append, any_range'_append, any_range'_append]

theorem Filter.anyHolds_groupFactors : ∀ (groups : List Filter) (k : Nat),
    Formula.anyHolds truth k (Filter.groupFactors n groups)
      = (List.range' k (Filter.groupOccurrences groups).length).any truth
  | [], _ => rfl
  | group :: rest, k => by
    have hGroup :
        Formula.anyHolds truth k (Formula.disjunction? (group.alternativeFactors n)).toList
          = (List.range' k group.occurrences.length).any truth := by
      rw [← Filter.anyHolds_alternativeFactors group]
      cases group.alternativeFactors n with
      | nil => rfl
      | cons a as => simp [Formula.disjunction?, Formula.anyHolds, Formula.value_foldl_either]
    rw [Filter.groupFactors, Filter.groupOccurrences, Formula.anyHolds_append, hGroup,
      Filter.sizes_disjunction?, Filter.anyHolds_groupFactors rest, List.length_append,
      any_range'_append]

end

namespace Filter

theorem allHold_groupFactors : ∀ (groups : List Filter) (k : Nat),
    Formula.allHold truth k (groupFactors n groups) = groupsHold truth k groups
  | [], _ => rfl
  | group :: rest, k => by
    have hGroup : Formula.allHold truth k (Formula.disjunction? (group.alternativeFactors n)).toList
        = (group.occurrences.isEmpty || (List.range' k group.occurrences.length).any truth) := by
      have hAny := anyHolds_alternativeFactors n truth group k
      have hPredicates := predicates_alternativeFactors n group
      cases hFactors : group.alternativeFactors n with
      | nil =>
        have hNone : group.occurrences = [] := by simpa [hFactors] using hPredicates.symm
        simp [Formula.disjunction?, Formula.allHold, hNone]
      | cons a as =>
        have hSome : group.occurrences ≠ [] := by
          intro hNone
          rw [hFactors, hNone, List.flatMap_cons] at hPredicates
          exact a.predicates_ne_nil (List.append_eq_nil_iff.mp hPredicates).1
        rw [← hAny, hFactors, ← Formula.value_foldl_either]
        simp [Formula.disjunction?, Formula.allHold, hSome]
    rw [groupFactors, groupsHold, Formula.allHold_append, hGroup, sizes_disjunction?,
      allHold_groupFactors rest]

/-- The terms of a filter together say what it means. -/
theorem allHold_factors : ∀ (f : Filter) (k : Nat),
    Formula.allHold truth k (f.factors n) = f.holds truth k
  | ⟨none, conditions, groups⟩, k => by
    rw [factors, holds, Formula.allHold_append, Formula.allHold_conditions,
      Formula.sizes_conditions, allHold_groupFactors]
  | ⟨some wrapped, conditions, groups⟩, k => by
    rw [factors, holds, Formula.allHold_append, Formula.allHold_append, allHold_factors wrapped,
      Formula.allHold_conditions, Formula.sizes_append, sizes_factors, Formula.sizes_conditions,
      allHold_groupFactors, Nat.add_assoc]

end Filter

end

end SqlStatement
