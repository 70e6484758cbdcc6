/-!
# Comparison operators

The thirteen operators of a condition.  `fragment` is what follows the field in
SQL, `name` what an error message calls the operator.

`admits` says which operator may come next on the same field: the two ends of a
range may alternate, a null test may be followed by anything but a null test, and
a membership test in a subquery by anything but another one.  The remaining
operators close the field.
-/

namespace SqlStatement

inductive Operator
  | eq
  | notEq
  | gt
  | gtEq
  | lt
  | ltEq
  | null
  | notNull
  | between
  | notBetween
  | inList
  | notIn
  | inSubquery
deriving DecidableEq, Repr

namespace Operator

def fragment : Operator → String
  | .eq => "="
  | .notEq => "!="
  | .gt => ">"
  | .gtEq => ">="
  | .lt => "<"
  | .ltEq => "<="
  | .null => " IS NULL"
  | .notNull => " IS NOT NULL"
  | .between => " BETWEEN"
  | .notBetween => " NOT BETWEEN"
  | .inList | .inSubquery => " IN"
  | .notIn => " NOT IN"

/-- The fragment without its leading blank; the two kinds of `IN` are told apart. -/
def name : Operator → String
  | .inSubquery => "IN SUBQUERY"
  | op => String.ofList (op.fragment.toList.dropWhile (· == ' '))

def isComparison : Operator → Bool
  | .eq | .notEq | .gt | .gtEq | .lt | .ltEq => true
  | _ => false

def isNullTest : Operator → Bool
  | .null | .notNull => true
  | _ => false

def isLowerBound : Operator → Bool
  | .gt | .gtEq => true
  | _ => false

def isUpperBound : Operator → Bool
  | .lt | .ltEq => true
  | _ => false

/-- Whether `next` may follow on the same field. -/
def admits (current next : Operator) : Bool :=
  match current with
  | .null | .notNull => !next.isNullTest
  | .gt | .gtEq => next.isUpperBound
  | .lt | .ltEq => next.isLowerBound
  | .inSubquery => next != .inSubquery
  | .eq | .notEq | .between | .notBetween | .inList | .notIn => false

theorem not_admits_self (op : Operator) : op.admits op = false := by cases op <;> rfl

end Operator

end SqlStatement
