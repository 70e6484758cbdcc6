import SqlStatement.Write.Assignment

/-!
# Inserting many rows

The first row fixes the columns, in the order of their names; every later row
must have the same fields, in any order.  The first row that does not fit is
remembered as the reason why the statement will not compile, and the rows after
it are ignored.
-/

namespace SqlStatement

structure BulkInsert where
  table : String
  columns : List String
  rows : List (List Value)
  upsert : Option Upsert
  refusal : Option CompileError

namespace BulkInsert

def into (table : String) : BulkInsert := ⟨table, [], [], none, none⟩

def upserting (b : BulkInsert) (u : Upsert) : BulkInsert := { b with upsert := some u }

def length (b : BulkInsert) : Nat := b.rows.length

def isEmpty (b : BulkInsert) : Bool := b.rows.isEmpty

/-- The entries of a row in column order, if the row fits. -/
def fit (b : BulkInsert) (fields : Assignments) : Except CompileError Assignments :=
  match fields.sorted with
  | .error e => .error e
  | .ok entries =>
    if b.rows.isEmpty then
      if entries.isEmpty then .error (.emptyFieldList b.table) else .ok entries
    else if entries.fields = b.columns then .ok entries
    else .error (.rowInconsistency b.rows.length)

def row (b : BulkInsert) (fields : Assignments) : BulkInsert :=
  match b.refusal with
  | some _ => b
  | none =>
    match b.fit fields with
    | .error e => { b with refusal := some e }
    | .ok entries =>
      { b with columns := entries.fields, rows := b.rows ++ [entries.map (·.value)] }

/-- The statement that takes these rows in order. -/
def ofRows (table : String) (upsert : Option Upsert) (rows : List Assignments) : BulkInsert :=
  { rows.foldl row (into table) with upsert }

/-! ### As a script -/

def rowScript (values : List Value) : Script :=
  .text "(" :: Script.placeholders values ++ [.text ")"]

def assignment (column : String) : String := column ++ "=VALUES(" ++ column ++ ")"

def upsertScript (columns : List String) : Option Upsert → Script
  | none => []
  | some u =>
    [.text ("ON DUPLICATE KEY UPDATE "
      ++ ",".intercalate ((columns.filter u.includes).map assignment) ++ "\n")]

def script (b : BulkInsert) : Script :=
  match b.refusal, b.rows with
  | some e, _ => [.fail e]
  | none, [] => [.fail (.noRows b.table)]
  | none, rows =>
    match Upsert.check b.table b.columns b.upsert with
    | .error e => [.fail e]
    | .ok () =>
      [.text "INSERT ", .table b.table, .text (" (" ++ ", ".intercalate b.columns ++ ")\nVALUES ")]
        ++ Script.joined "," (rows.map rowScript) ++ [.text "\n"]
        ++ upsertScript b.columns b.upsert

end BulkInsert

end SqlStatement
