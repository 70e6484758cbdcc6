import SqlStatement.Union
import SqlStatement.Write.BulkInsert
import SqlStatement.Write.Delete
import SqlStatement.Write.Insert
import SqlStatement.Write.Update

/-!
# Statements

* `Statement.compile`: the text of a statement and the values for its
  placeholders, or why there is none.
* `Compiled.substituted`: the text with the values put in, for people to read.
-/

namespace SqlStatement

inductive Statement
  | select (s : Select)
  | insert (i : Insert)
  | bulkInsert (b : BulkInsert)
  | update (u : Update)
  | delete (d : Delete)
  | union (u : Union)

def Statement.script : Statement → Script
  | .select s => s.script none
  | .insert i => i.script
  | .bulkInsert b => b.script
  | .update u => u.script
  | .delete d => d.script
  | .union u => u.script

def Statement.compile (schema : String) (s : Statement) : Except CompileError Compiled :=
  Script.compile schema s.script

/-! ### For people -/

/-- Each question mark, while values last, gives way to the raw form of the next one. -/
def substitute : List Char → List Value → List Char
  | [], _ => []
  | '?' :: rest, v :: values => v.displayChars ++ substitute rest values
  | c :: rest, values => c :: substitute rest values

def Compiled.substituted (c : Compiled) : String :=
  String.ofList (Text.trim (substitute c.sql.toList c.params))

/-- A compiled statement with its values put in, or the message of the error. -/
def debugText : Except CompileError Compiled → String
  | .ok c => c.substituted
  | .error e => e.message

/-- Whether two results are the same, as texts and as data. -/
def Compiled.agrees : Except CompileError Compiled → Except CompileError Compiled → Bool
  | .ok a, .ok b =>
    a.sql == b.sql && a.params.length == b.params.length
      && (a.params.zip b.params).all fun p => p.1.agrees p.2
  | .error a, .error b => a == b
  | _, _ => false

@[simp] theorem Compiled.agrees_self (r : Except CompileError Compiled) :
    Compiled.agrees r r = true := by
  cases r with
  | error e => simp [agrees]
  | ok c =>
    have hParams : ∀ l : List Value, (l.zip l).all (fun p => p.1.agrees p.2) = true := by
      intro l
      induction l with
      | nil => rfl
      | cons v rest ih => rw [List.zip_cons_cons, List.all_cons, ih, Value.agrees_self]; rfl
    simp [agrees, hParams c.params]

end SqlStatement
