import SqlStatement.Script

/-!
# Assignments

A statement that writes carries a list of fields with the values they get.  An
increment adds its value to what is stored, if there is something stored.

* `Assignments.sorted`: by field, each field at most once.
* `Assignment.set` and `Assignment.update`: an assignment in a fresh row and in
  a stored one.
* `Upsert.check`: whether the fields to replace on a duplicate key are all
  written.
-/

namespace SqlStatement

inductive AssignmentKind
  | assign
  | increment
deriving DecidableEq, Repr

structure Assignment where
  field : String
  kind : AssignmentKind
  value : Value

abbrev Assignments := List Assignment

namespace Assignments

def value (l : Assignments) (field : String) (v : Value) : Assignments := l ++ [⟨field, .assign, v⟩]

def add (l : Assignments) (field : String) (v : Value) : Assignments :=
  l ++ [⟨field, .increment, v⟩]

def ofPairs (pairs : List (String × Value)) : Assignments :=
  pairs.map fun p => ⟨p.1, .assign, p.2⟩

def fields (l : Assignments) : List String := l.map (·.field)

/-- The first field that stands twice in a row. -/
def repeated? : Assignments → Option String
  | a :: b :: rest => if a.field = b.field then some a.field else repeated? (b :: rest)
  | _ => none

def byField (l : Assignments) : Assignments := l.mergeSort fun a b => a.field ≤ b.field

def sorted (l : Assignments) : Except CompileError Assignments :=
  match repeated? (byField l) with
  | some field => .error (.duplicateField field)
  | none => .ok (byField l)

end Assignments

namespace Assignment

/-- `field=?`, whatever the kind. -/
def set (n : Naming) (a : Assignment) : Script :=
  [.text (n.qualify a.field ++ "="), .placeholder a.value]

/-- `field=?` or `field=field+?`. -/
def update (n : Naming) (a : Assignment) : Script :=
  match a.kind with
  | .assign => a.set n
  | .increment =>
    [.text (n.qualify a.field ++ "=" ++ n.qualify a.field ++ "+"), .placeholder a.value]

end Assignment

/-- What is replaced on a duplicate key. -/
inductive Upsert
  | all
  | only (fields : List String)
deriving DecidableEq, Repr

namespace Upsert

def includes : Upsert → String → Bool
  | .all, _ => true
  | .only fields, field => fields.contains field

/-- A chosen list must not be empty, and names only fields that are written. -/
def check (table : String) (written : List String) : Option Upsert → Except CompileError Unit
  | none | some .all => .ok ()
  | some (.only []) => .error (.emptyFieldList table)
  | some (.only requested) =>
    match requested.find? fun f => !written.contains f with
    | some field => .error (.invalidUpsertField field)
    | none => .ok ()

end Upsert

end SqlStatement
