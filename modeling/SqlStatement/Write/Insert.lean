import SqlStatement.Write.Assignment

/-!
# Inserting one row

The fields are written in their order, then once more where a duplicate key lets
them replace what is stored.
-/

namespace SqlStatement

structure Insert where
  table : String
  fields : Assignments
  upsert : Option Upsert

namespace Insert

def into (table : String) : Insert := ⟨table, [], none⟩

def withFields (i : Insert) (fields : Assignments) : Insert := { i with fields }

def value (i : Insert) (field : String) (v : Value) : Insert :=
  { i with fields := i.fields.value field v }

def add (i : Insert) (field : String) (v : Value) : Insert := { i with fields := i.fields.add field v }

def upserting (i : Insert) (u : Upsert) : Insert := { i with upsert := some u }

/-! ### As a script -/

def upsertScript (entries : Assignments) : Option Upsert → Script
  | none => []
  | some u =>
    .text "ON DUPLICATE KEY UPDATE "
      :: Script.joined ", "
        ((entries.filter fun a => u.includes a.field).map (Assignment.update .bare))
      ++ [.text "\n"]

def script (i : Insert) : Script :=
  match i.fields.sorted with
  | .error e => [.fail e]
  | .ok [] => [.fail (.emptyFieldList i.table)]
  | .ok entries =>
    match Upsert.check i.table entries.fields i.upsert with
    | .error e => [.fail e]
    | .ok () =>
      [.text "INSERT ", .table i.table, .text "\nSET "]
        ++ Script.joined ", " (entries.map (Assignment.set .bare)) ++ [.text "\n"]
        ++ upsertScript entries i.upsert

end Insert

end SqlStatement
