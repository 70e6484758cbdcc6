import SqlStatement.Script

/-!
# Join lines

One line per join.  A further ON term is a null test, a comparison with a field
or a comparison with a literal; with any other operator the join does not
compile.
-/

namespace SqlStatement

/-- A null test has no right side, whatever the target. -/
def OnTerm.script (n : Naming) (name : String) (t : OnTerm) : Script :=
  let left := " AND " ++ Field.ofTable name t.field ++ t.operator.fragment
  if t.operator.isNullTest then [.text left]
  else if t.operator.isComparison then
    match t.target with
    | .field foreign => [.text (left ++ n.qualify foreign)]
    | .value v => [.text (left ++ v.literal)]
  else [.fail (.unsupportedJoinOperator name t.operator)]

namespace Join

def script (n : Naming) (j : Join) : Script :=
  [.text (j.mode.keyword ++ " "), .table j.table,
    .text (" " ++ j.name ++ " ON " ++ Field.ofTable j.name j.field ++ "=" ++ n.qualify j.foreign)]
    ++ j.terms.flatMap (OnTerm.script n j.name) ++ [.text "\n"]

def scripts (n : Naming) (joins : List Join) : Script := joins.flatMap (script n)

end Join

end SqlStatement
