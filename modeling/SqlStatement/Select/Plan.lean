import SqlStatement.Join.Resolution
import SqlStatement.Select.Filter

/-!
# Plans

Before anything is written a statement is planned: its tables get their aliases,
and the joins to write are chosen and ordered.

* `Source.plan`: the plan of a source, given the aliases to avoid and the fields
  the statement mentions.
* `Select.plan`: the plan of a select.  One that is correlated, or that reads
  JSON, always uses aliases.
-/

namespace SqlStatement

structure Plan where
  naming : Naming
  joins : List Join

/-- All joins as declared, or the needed ones in their order if the source is pruned. -/
def Source.plan (s : Source) (force : Bool) (reserved mentioned : List String) :
    Except CompileError Plan :=
  match Naming.assign s.table s.requested s.joins force reserved with
  | .error e => .error e
  | .ok naming =>
    if s.prune && !s.joins.isEmpty then
      match Join.resolve s.joins naming.base (Field.qualifiers mentioned) with
      | .error e => .error e
      | .ok joins => .ok ⟨naming, joins⟩
    else .ok ⟨naming, s.joins⟩

/-- How a JSON sub-select is tied to the select around it. -/
structure Correlation where
  /-- The aliases of all selects around it. -/
  enclosing : List String
  inner : String
  /-- Written as it stands. -/
  outer : String

namespace Select

/-- The fields that a select mentions outside its joins. -/
def mentioned (s : Select) : List String :=
  s.selection.fields.map (·.field) ++ s.json.map (·.outer)
    ++ s.selection.jsonTables.flatMap JsonTable.sourceFields
    ++ s.selection.group ++ s.selection.order.map (·.field) ++ s.filter.fields

def plan (s : Select) (correlation : Option Correlation) : Except CompileError Plan :=
  s.source.plan
    (correlation.isSome || !s.json.isEmpty || !s.selection.jsonTables.isEmpty)
    (s.selection.jsonTables.map (·.name)
      ++ match correlation with | some c => c.enclosing | none => [])
    s.mentioned

/-- How many members each object of a JSON array of these rows has. -/
def width (s : Select) : Nat := s.selection.fields.length + s.json.length

end Select

end SqlStatement
