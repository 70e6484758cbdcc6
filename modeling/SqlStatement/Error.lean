import SqlStatement.Operator

/-!
# Why a statement does not compile

Each cause keeps what it is about, `CompileError.message` has the wording.
-/

namespace SqlStatement

inductive CompileError
  | joinAliasCollision (name table : String)
  | unsupportedJoinOperator (name : String) (operator : Operator)
  | aliasExhausted (table : String)
  | circularJoinDependency (aliases : List String)
  | unionMemberCount (count : Nat)
  | rowInconsistency (row : Nat)
  | noRows (table : String)
  | insufficientJsonFields (name : String) (count : Nat)
  | incompleteJsonTable (name : String)
  | emptyFieldList (table : String)
  | duplicateField (field : String)
  | invalidUpsertField (field : String)
  | incompatibleOperator (field : String) (current next : Operator)
  | emptyInList (field : String) (operator : Operator)
deriving DecidableEq, Repr

def CompileError.message : CompileError → String
  | .joinAliasCollision name table => "join alias already used: " ++ name ++ " (" ++ table ++ ")"
  | .unsupportedJoinOperator name operator =>
    "unsupported operator " ++ operator.name ++ " in ON clause of join " ++ name
  | .aliasExhausted table => "no free alias left for base table " ++ table
  | .circularJoinDependency aliases =>
    "circular join dependency between aliases: " ++ ", ".intercalate aliases
  | .unionMemberCount count => "union needs at least two queries, got " ++ count.repr
  | .rowInconsistency row => "insert rows inconsistency at row " ++ row.repr
  | .noRows table => "bulk insert into " ++ table ++ " has no rows"
  | .insufficientJsonFields name count =>
    "JSON sub-select " ++ name ++ " needs at least two fields, got " ++ count.repr
  | .incompleteJsonTable name =>
    "JSON table " ++ name ++ " needs a source field and at least one column"
  | .emptyFieldList table => "no fields to write into " ++ table
  | .duplicateField field => "duplicate field: " ++ field
  | .invalidUpsertField field => "invalid update duplicate field: " ++ field
  | .incompatibleOperator field current next =>
    "where clause operator incompatible on same field (" ++ field ++ "): " ++ current.name ++ " "
      ++ next.name
  | .emptyInList field operator =>
    "empty value list for " ++ operator.name ++ " on field " ++ field

/-- Says that `next` may follow `current` on `field`, or why not. -/
def Operator.checkFollowedBy (current next : Operator) (field : String) :
    Except CompileError Unit :=
  if current.admits next then .ok () else .error (.incompatibleOperator field current next)

end SqlStatement
