import SqlStatement.Select.Build
import SqlStatement.Select.Script

/-!
# Unions

The rows of two or more selects taken together, queried by a select around them.
Each member is compiled on its own and stands unchanged between the parentheses.
-/

namespace SqlStatement

structure Union where
  outer : Select
  members : List Select
  keepDuplicates : Bool

namespace Union

/-- What the rows taken together are called. -/
def rowset : String := "t"

/-- A union without duplicates. -/
def distinctRows : Union := ⟨.ofTable rowset, [], false⟩

/-- A union that keeps duplicates. -/
def allRows : Union := ⟨.ofTable rowset, [], true⟩

def member (u : Union) (query : Select) : Union := { u with members := u.members ++ [query] }

/-- Refines the select around the members. -/
def refine (u : Union) (f : Select → Select) : Union := { u with outer := f u.outer }

/-! ### As a script -/

def separator (u : Union) : String := if u.keepDuplicates then "UNION ALL\n" else "UNION\n"

def memberScript (query : Select) : Script := [.nested (query.script none), .text "\n"]

/-- The alias of the rows taken together. -/
def name : Naming → String
  | .bare => rowset
  | .aliased base _ => base

def script (u : Union) : Script :=
  if u.members.length < 2 then [.fail (.unionMemberCount u.members.length)]
  else match u.outer.plan none with
    | .error e => [.fail e]
    | .ok plan =>
      .aliases plan.naming
        :: u.outer.selection.listScript plan.naming (JsonSelect.scripts plan.naming u.outer.json)
        ++ .text "FROM (\n" :: Script.joined u.separator (u.members.map memberScript)
        ++ [.text (") " ++ name plan.naming ++ "\n")]
        ++ Join.scripts plan.naming plan.joins
        ++ whereScript plan.naming none u.outer.source.row (u.outer.filter.terms plan.naming)
        ++ u.outer.selection.tailScript plan.naming

end Union

end SqlStatement
