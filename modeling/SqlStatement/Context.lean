import SqlStatement.Naming

/-!
# Contexts

A context holds one compile in progress: the text so far, the values bound so
far, the aliases in use and the schema that stands in front of every table.

* `Context.finish`: the compiled statement, line breaks at its end dropped.
* `Context.reset`: everything is forgotten but the schema.
-/

namespace SqlStatement

/-- A text and a value for each of its placeholders, in order. -/
structure Compiled where
  sql : String
  params : List Value

structure Context where
  schema : String
  sql : String
  params : List Value
  naming : Naming

namespace Context

/-- The empty context of a schema. -/
def ofSchema (schema : String) : Context := ⟨schema, "", [], .bare⟩

def write (c : Context) (s : String) : Context := { c with sql := c.sql ++ s }

def writeTable (c : Context) (table : String) : Context := c.write (c.schema ++ "." ++ table)

def writeField (c : Context) (field : String) : Context := c.write (c.naming.qualify field)

def bind (c : Context) (v : Value) : Context :=
  { c with sql := c.sql ++ "?", params := c.params ++ [v] }

def rename (c : Context) (naming : Naming) : Context := { c with naming }

/-- Puts a finished statement at the end. -/
def splice (c : Context) (nested : Compiled) : Context :=
  { c with sql := c.sql ++ nested.sql, params := c.params ++ nested.params }

def finish (c : Context) : Compiled :=
  ⟨String.ofList (Text.dropEndWhile (· == '\n') c.sql.toList), c.params⟩

def reset (c : Context) : Context := ofSchema c.schema

@[simp] theorem reset_ofSchema (schema : String) : (ofSchema schema).reset = ofSchema schema := rfl

end Context

end SqlStatement
