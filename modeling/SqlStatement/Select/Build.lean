import SqlStatement.Select.Filter

/-!
# Building selects

A select starts as all columns of all rows of a table and is refined step by
step.  Building never fails.
-/

namespace SqlStatement

namespace Source

def join (s : Source) (j : Join) : Source := { s with joins := s.joins ++ [j] }

end Source

namespace Select

def ofTable (table : String) : Select := ⟨.ofTable table, .all, .any, []⟩

/-- The row of `table` with this id. -/
def byId (table : String) (id : UInt64) : Select :=
  ⟨{ Source.ofTable table with row := some id }, .all, .any, []⟩

def table (s : Select) : String := s.source.table

def row (s : Select) (id : UInt64) : Select := { s with source := { s.source with row := some id } }

def named (s : Select) (name : String) : Select :=
  { s with source := { s.source with requested := some name } }

def fields (s : Select) (fields : List SelectField) : Select :=
  { s with selection := { s.selection with fields } }

def field (s : Select) (field : SelectField) : Select :=
  s.fields (s.selection.fields ++ [field])

def distinct (s : Select) : Select := { s with selection := { s.selection with distinct := true } }

def join (s : Select) (j : Join) : Select := { s with source := s.source.join j }

def pruneJoins (s : Select) : Select := { s with source := { s.source with prune := true } }

def filtered (s : Select) (filter : Filter) : Select := { s with filter }

def groupBy (s : Select) (group : List String) : Select :=
  { s with selection := { s.selection with group } }

def orderBy (s : Select) (order : List OrderField) : Select :=
  { s with selection := { s.selection with order } }

def limit (s : Select) (offset count : UInt64) : Select :=
  { s with selection := { s.selection with offset, limit := count } }

def lock (s : Select) : Select := { s with selection := { s.selection with locked := true } }

/-- The rows of `query` whose `inner` equals `outer`, as a JSON array called `name`. -/
def jsonSelect (s : Select) (name : String) (query : Select) (inner outer : String) : Select :=
  { s with json := s.json ++ [⟨name, query, inner, outer⟩] }

def jsonTable (s : Select) (t : JsonTable) : Select :=
  { s with selection := { s.selection with jsonTables := s.selection.jsonTables ++ [t] } }

end Select

end SqlStatement
