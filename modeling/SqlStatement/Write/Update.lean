import SqlStatement.Select.Build
import SqlStatement.Select.Script
import SqlStatement.Write.Assignment

/-!
# Updates

Assignments to the rows of a source that a filter lets through, and at most one
path removed from a JSON document.
-/

namespace SqlStatement

structure JsonRemoval where
  field : String
  path : String
deriving DecidableEq, Repr

structure Update where
  source : Source
  fields : Assignments
  removal : Option JsonRemoval
  filter : Filter

namespace Update

def ofTable (table : String) : Update := ⟨.ofTable table, [], none, .any⟩

def row (u : Update) (id : UInt64) : Update := { u with source := { u.source with row := some id } }

def named (u : Update) (name : String) : Update :=
  { u with source := { u.source with requested := some name } }

def join (u : Update) (j : Join) : Update := { u with source := u.source.join j }

def pruneJoins (u : Update) : Update := { u with source := { u.source with prune := true } }

def filtered (u : Update) (filter : Filter) : Update := { u with filter }

def withFields (u : Update) (fields : Assignments) : Update := { u with fields }

def value (u : Update) (field : String) (v : Value) : Update :=
  { u with fields := u.fields.value field v }

def add (u : Update) (field : String) (v : Value) : Update := { u with fields := u.fields.add field v }

def jsonRemove (u : Update) (field path : String) : Update := { u with removal := some ⟨field, path⟩ }

/-! ### As a script -/

/-- The fields that an update mentions outside its joins. -/
def mentioned (u : Update) : List String :=
  u.fields.fields ++ (u.removal.map (·.field)).toList ++ u.filter.fields

def plan (u : Update) : Except CompileError Plan := u.source.plan false [] u.mentioned

def removalScript (n : Naming) (r : JsonRemoval) : Script :=
  [.text (n.qualify r.field ++ "=JSON_REMOVE(" ++ n.qualify r.field ++ ", '" ++ r.path ++ "')")]

def setScripts (n : Naming) (entries : Assignments) (removal : Option JsonRemoval) : List Script :=
  entries.map (Assignment.update n) ++ (removal.map (removalScript n)).toList

def script (u : Update) : Script :=
  match u.fields.sorted with
  | .error e => [.fail e]
  | .ok entries =>
    if entries.isEmpty && u.removal.isNone then [.fail (.emptyFieldList u.source.table)]
    else match u.plan with
      | .error e => [.fail e]
      | .ok plan =>
        [.aliases plan.naming, .text "UPDATE ", .table u.source.table,
          .text (plan.naming.suffix ++ "\n")]
          ++ Join.scripts plan.naming plan.joins
          ++ .text "SET " :: Script.joined ", " (setScripts plan.naming entries u.removal)
          ++ [.text "\n"]
          ++ whereScript plan.naming none u.source.row (u.filter.terms plan.naming)

end Update

end SqlStatement
