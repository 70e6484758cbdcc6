import SqlStatement.Select.Build
import SqlStatement.Select.Script

/-!
# Deletes

Only rows of the base table are deleted: with aliases in use, its alias is the
one named in front of FROM.
-/

namespace SqlStatement

structure Delete where
  source : Source
  filter : Filter

namespace Delete

def ofTable (table : String) : Delete := ⟨.ofTable table, .any⟩

def row (d : Delete) (id : UInt64) : Delete := { d with source := { d.source with row := some id } }

def named (d : Delete) (name : String) : Delete :=
  { d with source := { d.source with requested := some name } }

def join (d : Delete) (j : Join) : Delete := { d with source := d.source.join j }

def pruneJoins (d : Delete) : Delete := { d with source := { d.source with prune := true } }

def filtered (d : Delete) (filter : Filter) : Delete := { d with filter }

/-! ### As a script -/

def plan (d : Delete) : Except CompileError Plan := d.source.plan false [] d.filter.fields

/-- The table whose rows go, if there is more than one. -/
def victim : Naming → String
  | .bare => ""
  | .aliased base _ => base ++ " "

def script (d : Delete) : Script :=
  match d.plan with
  | .error e => [.fail e]
  | .ok plan =>
    [.aliases plan.naming, .text ("DELETE " ++ victim plan.naming ++ "FROM "), .table d.source.table,
      .text (plan.naming.suffix ++ "\n")]
      ++ Join.scripts plan.naming plan.joins
      ++ whereScript plan.naming none d.source.row (d.filter.terms plan.naming)

end Delete

end SqlStatement
