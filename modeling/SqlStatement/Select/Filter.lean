import SqlStatement.Select.Basic

/-!
# Building and inspecting filters

* `Filter.isEmpty`: no condition anywhere in the tree.
* `Filter.fields`: the fields of all conditions of the tree.
-/

namespace SqlStatement.Filter

/-- The filter without conditions. -/
def any : Filter := ⟨none, [], []⟩

def condition (f : Filter) (field : String) (test : Test) : Filter :=
  { f with conditions := f.conditions ++ [⟨field, test⟩] }

def compare (f : Filter) (c : Comparison) (field : String) (v : Value) : Filter :=
  f.condition field (.compare c v)

/-- One equality for each pair, in the order of the fields. -/
def equalities (f : Filter) (pairs : List (String × Value)) : Filter :=
  (pairs.mergeSort fun a b => a.1 ≤ b.1).foldl (fun f p => f.compare .eq p.1 p.2) f

/-- Puts another clause in front, in place of one put there earlier. -/
def wrap (f inner : Filter) : Filter := { f with wrapped := some inner }

/-- One more group of alternatives. -/
def orGroup (f group : Filter) : Filter := { f with groups := f.groups ++ [group] }

mutual

def isEmpty : Filter → Bool
  | ⟨none, conditions, groups⟩ => conditions.isEmpty && allEmpty groups
  | ⟨some wrapped, conditions, groups⟩ =>
    conditions.isEmpty && isEmpty wrapped && allEmpty groups

def allEmpty : List Filter → Bool
  | [] => true
  | f :: rest => isEmpty f && allEmpty rest

end

mutual

def fields : Filter → List String
  | ⟨none, conditions, groups⟩ => groupFields groups ++ conditions.map (·.field)
  | ⟨some wrapped, conditions, groups⟩ =>
    fields wrapped ++ groupFields groups ++ conditions.map (·.field)

def groupFields : List Filter → List String
  | [] => []
  | f :: rest => fields f ++ groupFields rest

end

end SqlStatement.Filter
