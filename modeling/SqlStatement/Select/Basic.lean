import SqlStatement.Select.Field
import SqlStatement.Select.JsonTable
import SqlStatement.Select.Order

/-!
# Selects and their filters

A select reads from a source, keeps the rows its filter lets through and returns
its selection.  Selects occur inside selects: as the subquery of a membership
test, and as a JSON sub-select, whose rows become one JSON array for each row of
the select around it.

A filter is a tree.  Its own conditions hold together, with those of the clause
it wraps and with at least one alternative of each of its groups.
-/

namespace SqlStatement

/-- The table a statement is about, with the tables joined to it. -/
structure Source where
  table : String
  /-- The alias asked for. -/
  requested : Option String
  joins : List Join
  /-- Write only the joins that are needed. -/
  prune : Bool
  /-- The one row the statement is restricted to. -/
  row : Option UInt64

def Source.ofTable (table : String) : Source := ⟨table, none, [], false, none⟩

/-- What a select returns of its rows. -/
structure Selection where
  fields : List SelectField
  distinct : Bool
  jsonTables : List JsonTable
  group : List String
  order : List OrderField
  offset : UInt64
  /-- Zero for all rows. -/
  limit : UInt64
  locked : Bool

def Selection.all : Selection := ⟨[], false, [], [], [], 0, 0, false⟩

/-- The comparisons with one value. -/
inductive Comparison
  | eq
  | notEq
  | gt
  | gtEq
  | lt
  | ltEq
deriving DecidableEq, Repr

def Comparison.operator : Comparison → Operator
  | .eq => .eq
  | .notEq => .notEq
  | .gt => .gt
  | .gtEq => .gtEq
  | .lt => .lt
  | .ltEq => .ltEq

mutual

/-- What a condition says of its field. -/
inductive Test
  | compare (c : Comparison) (v : Value)
  | null
  | notNull
  | between (low high : Value)
  | notBetween (low high : Value)
  | inList (values : List Value)
  | notIn (values : List Value)
  | inSubquery (query : Select)

structure Condition where
  field : String
  test : Test

structure Filter where
  wrapped : Option Filter
  conditions : List Condition
  groups : List Filter

/-- The rows of `query` whose field `inner` equals the field `outer` of the select around it. -/
structure JsonSelect where
  name : String
  query : Select
  inner : String
  outer : String

structure Select where
  source : Source
  selection : Selection
  filter : Filter
  json : List JsonSelect

end

def Test.operator : Test → Operator
  | .compare c _ => c.operator
  | .null => .null
  | .notNull => .notNull
  | .between _ _ => .between
  | .notBetween _ _ => .notBetween
  | .inList _ => .inList
  | .notIn _ => .notIn
  | .inSubquery _ => .inSubquery

def Condition.operator (c : Condition) : Operator := c.test.operator

end SqlStatement
