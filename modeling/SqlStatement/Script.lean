import SqlStatement.Context

/-!
# Scripts

A statement is laid out as a list of pieces.  Running the pieces in order writes
the statement; the first failing piece ends the run.  A nested statement is run
in a context of its own and spliced in when it is finished.

* `Script.runIn`: the context after a run.
* `Script.compile`: the statement a script writes under a schema.
* `Script.runIn_append`: running two scripts one after the other.
-/

namespace SqlStatement

inductive Piece
  | text (s : String)
  | table (name : String)
  | placeholder (v : Value)
  | aliases (naming : Naming)
  | fail (e : CompileError)
  | nested (body : List Piece)

instance : Coe String Piece := ⟨.text⟩

abbrev Script := List Piece

namespace Script

mutual

def stepIn : Piece → Context → Except CompileError Context
  | .text s, c => .ok (c.write s)
  | .table name, c => .ok (c.writeTable name)
  | .placeholder v, c => .ok (c.bind v)
  | .aliases naming, c => .ok (c.rename naming)
  | .fail e, _ => .error e
  | .nested body, c =>
    match runIn body (Context.ofSchema c.schema) with
    | .error e => .error e
    | .ok inner => .ok (c.splice inner.finish)

def runIn : List Piece → Context → Except CompileError Context
  | [], c => .ok c
  | p :: rest, c =>
    match stepIn p c with
    | .error e => .error e
    | .ok c => runIn rest c

end

def compile (schema : String) (s : Script) : Except CompileError Compiled :=
  (runIn s (Context.ofSchema schema)).map Context.finish

/-- Scripts one after the other, with a text between them. -/
def joined (separator : String) (scripts : List Script) : Script :=
  List.intercalate [.text separator] scripts

/-- Placeholders with commas between them. -/
def placeholders (values : List Value) : Script :=
  joined "," (values.map fun v => [.placeholder v])

theorem runIn_append : ∀ (a b : Script) (c : Context),
    runIn (a ++ b) c = (runIn a c).bind (runIn b) := by
  intro a
  induction a with
  | nil => intro b c; rw [List.nil_append, runIn]; rfl
  | cons p rest ih =>
    intro b c
    rw [List.cons_append, runIn, runIn]
    cases stepIn p c with
    | error e => rfl
    | ok c' => exact ih b c'

end Script

end SqlStatement
