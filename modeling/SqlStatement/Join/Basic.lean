import SqlStatement.Error
import SqlStatement.Field
import SqlStatement.Value

/-!
# Joins

A join attaches a table under an alias: `name.field` equals `foreign`, a field
of the base table or, qualified, of another join.  Further terms compare a field
of the joined table with another field or with a fixed value.

* `Join.references`: the other aliases that the ON clause names.
-/

namespace SqlStatement

inductive JoinMode
  | inner
  | left
deriving DecidableEq, Repr

def JoinMode.keyword : JoinMode → String
  | .inner => "INNER JOIN"
  | .left => "LEFT JOIN"

/-- Inner joins come before left joins of the same depth. -/
def JoinMode.rank : JoinMode → Nat
  | .inner => 0
  | .left => 1

/-- What a further ON term compares with. -/
inductive OnTarget
  | field (foreign : String)
  | value (v : Value)

structure OnTerm where
  field : String
  operator : Operator
  target : OnTarget

structure Join where
  mode : JoinMode
  table : String
  name : String
  field : String
  foreign : String
  terms : List OnTerm

namespace OnTerm

/-- `name.field=foreign`. -/
def column (field foreign : String) : OnTerm := ⟨field, .eq, .field foreign⟩

/-- `name.field=v`. -/
def fixed (field : String) (v : Value) : OnTerm := ⟨field, .eq, .value v⟩

/-- A comparison with a fixed value, by any operator. -/
def compare (field : String) (operator : Operator) (v : Value) : OnTerm :=
  ⟨field, operator, .value v⟩

def foreign? (t : OnTerm) : Option String :=
  match t.target with
  | .field foreign => some foreign
  | .value _ => none

end OnTerm

namespace Join

/-- The fields outside the joined table that the ON clause names. -/
def foreignFields (j : Join) : List String := j.foreign :: j.terms.filterMap OnTerm.foreign?

/-- The aliases that the ON clause names, the join's own left out. -/
def references (j : Join) : List String :=
  (Field.qualifiers j.foreignFields).filter (· != j.name)

end Join

end SqlStatement
