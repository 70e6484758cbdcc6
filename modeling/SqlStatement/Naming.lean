import SqlStatement.Join.Basic

/-!
# The aliases of a statement

A statement on one table writes its fields bare.  As soon as other tables come
in, every table has an alias: joins and JSON tables the one they were declared
with, the base table the one asked for or the first character of its name, and
if that is taken the first free letter of the alphabet.

* `Naming.assign`: the aliases of a statement, given the ones it must avoid.
* `Naming.qualify`: a field as it is written under these aliases.
-/

namespace SqlStatement

inductive Naming
  | bare
  /-- Every alias that is taken, with the table it stands for. -/
  | aliased (base : String) (tables : List (String × String))

namespace Naming

def inUse : Naming → Bool
  | .bare => false
  | .aliased _ _ => true

/-- The alias of the base table, empty when there is none. -/
def base : Naming → String
  | .bare => ""
  | .aliased base _ => base

def aliases : Naming → List String
  | .bare => []
  | .aliased _ tables => tables.map (·.1)

def table? : Naming → String → Option String
  | .bare, _ => none
  | .aliased _ tables, name => tables.lookup name

def qualify : Naming → String → String
  | .bare, field => field
  | .aliased base _, field => if Field.isQualified field then field else Field.ofTable base field

/-- What stands behind the name of the base table. -/
def suffix : Naming → String
  | .bare => ""
  | .aliased base _ => " " ++ base

/-! ### Assignment -/

def letters : List String := "abcdefghijklmnopqrstuvwxyz".toList.map fun c => String.ofList [c]

/-- Adds the aliases of the joins to those taken. -/
def claim (taken : List (String × String)) : List Join → Except CompileError (List (String × String))
  | [] => .ok taken
  | j :: rest =>
    if (taken.map (·.1)).contains j.name then .error (.joinAliasCollision j.name j.table)
    else claim (taken ++ [(j.name, j.table)]) rest

/-- The alias the base table would like: the requested one or its first character. -/
def preferred (table : String) (requested : Option String) : String :=
  requested.getD (String.ofList (table.toList.take 1))

def chooseBase (taken : List String) (table : String) (requested : Option String) :
    Except CompileError String :=
  let name := preferred table requested
  if name != "" && !taken.contains name then .ok name
  else match letters.find? fun l => !taken.contains l with
    | some l => .ok l
    | none => .error (.aliasExhausted table)

/-- The aliases of a statement on `table` with these joins.  Without joins there are none, unless
`force` asks for them; `reserved` are never handed out. -/
def assign (table : String) (requested : Option String) (joins : List Join) (force : Bool)
    (reserved : List String) : Except CompileError Naming :=
  if force || !joins.isEmpty then
    match claim (reserved.map fun a => (a, "")) joins with
    | .error e => .error e
    | .ok taken =>
      match chooseBase (taken.map (·.1)) table requested with
      | .error e => .error e
      | .ok base => .ok (.aliased base (taken ++ [(base, table)]))
  else .ok .bare

end Naming

end SqlStatement
