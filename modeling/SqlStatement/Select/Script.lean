import SqlStatement.Select.Clauses

/-!
# Selects as scripts

A select is written clause by clause under its plan.  Its subqueries and JSON
sub-selects are nested scripts: each is planned on its own, a JSON sub-select
with the aliases around it reserved.

* `Select.script`: the select, correlated or not.
* `Filter.terms`: what a clause adds to a conjunction: the terms of the clause it
  wraps, its own conditions, its groups in parentheses.  Operators on one field
  must be compatible within the conditions of one clause.
* `Filter.alternatives`: what a group adds to a disjunction; there any operators
  go together.
-/

namespace SqlStatement

mutual

def Select.script (correlation : Option Correlation) : Select → Script
  | ⟨source, selection, filter, json⟩ =>
    match Select.plan ⟨source, selection, filter, json⟩ correlation with
    | .error e => [.fail e]
    | .ok plan =>
      let nested := JsonSelect.scripts plan.naming json
      .aliases plan.naming
        :: (if correlation.isSome then selection.objectScript plan.naming nested
            else selection.listScript plan.naming nested)
        ++ selection.fromScript plan.naming source.table
        ++ Join.scripts plan.naming plan.joins
        ++ whereScript plan.naming correlation source.row (Filter.terms plan.naming filter)
        ++ selection.tailScript plan.naming

def JsonSelect.scripts (n : Naming) : List JsonSelect → List NamedScript
  | [] => []
  | j :: rest => JsonSelect.script n j :: JsonSelect.scripts n rest

/-- The sub-select in parentheses, tied to this level; an object needs two members. -/
def JsonSelect.script (n : Naming) : JsonSelect → NamedScript
  | ⟨name, query, inner, outer⟩ =>
    ⟨name,
      if query.width < 2 then [.fail (.insufficientJsonFields name query.width)]
      else [.text "(", .nested (Select.script (some ⟨n.aliases, inner, n.qualify outer⟩) query),
        .text ")"]⟩

def Filter.terms (n : Naming) : Filter → List Script
  | ⟨none, conditions, groups⟩ => Filter.conditionTerms n [] conditions ++ Filter.groupTerms n groups
  | ⟨some wrapped, conditions, groups⟩ =>
    Filter.terms n wrapped ++ Filter.conditionTerms n [] conditions ++ Filter.groupTerms n groups

def Filter.conditionTerms (n : Naming) (seen : List (String × Operator)) :
    List Condition → List Script
  | [] => []
  | ⟨field, test⟩ :: rest =>
    Filter.guarded (Filter.check seen field test.operator) (Test.script n field test)
      :: Filter.conditionTerms n ((field, test.operator) :: seen) rest

def Filter.groupTerms (n : Naming) : List Filter → List Script
  | [] => []
  | group :: rest => Filter.parenthesised (Filter.alternatives n group) ++ Filter.groupTerms n rest

def Filter.alternatives (n : Naming) : Filter → List Script
  | ⟨none, conditions, groups⟩ => Filter.conditionScripts n conditions ++ Filter.groupTerms n groups
  | ⟨some wrapped, conditions, groups⟩ =>
    Filter.alternatives n wrapped ++ Filter.conditionScripts n conditions
      ++ Filter.groupTerms n groups

def Filter.conditionScripts (n : Naming) : List Condition → List Script
  | [] => []
  | ⟨field, test⟩ :: rest => Test.script n field test :: Filter.conditionScripts n rest

def Test.script (n : Naming) (field : String) : Test → Script
  | .compare c v => [.text (n.qualify field ++ c.operator.fragment), .placeholder v]
  | .null => [.text (n.qualify field ++ Operator.null.fragment)]
  | .notNull => [.text (n.qualify field ++ Operator.notNull.fragment)]
  | .between low high =>
    .text (n.qualify field ++ Operator.between.fragment) :: Filter.rangeOperand low high
  | .notBetween low high =>
    .text (n.qualify field ++ Operator.notBetween.fragment) :: Filter.rangeOperand low high
  | .inList values =>
    .text (n.qualify field ++ Operator.inList.fragment) :: Filter.listOperand field .inList values
  | .notIn values =>
    .text (n.qualify field ++ Operator.notIn.fragment) :: Filter.listOperand field .notIn values
  | .inSubquery query =>
    [.text (n.qualify field ++ Operator.inSubquery.fragment ++ " ("),
      .nested (Select.script none query), .text ")"]

end

end SqlStatement
