import SqlStatement.Script

/-!
# JSON tables

A JSON document in a field, or the key and value pairs of an object in it, read
as rows with the columns declared for them.  A JSON table without a source or
without columns does not compile.
-/

namespace SqlStatement

inductive JsonSource
  | document (field : String)
  | keyValue (field : String)
deriving DecidableEq, Repr

structure JsonColumn where
  property : String
  type : String
  path : String
deriving DecidableEq, Repr

structure JsonTable where
  name : String
  source : Option JsonSource
  path : String
  columns : List JsonColumn
deriving DecidableEq, Repr

def JsonSource.field : JsonSource → String
  | .document field | .keyValue field => field

def JsonSource.written (n : Naming) : JsonSource → String
  | .document field => n.qualify field
  | .keyValue field => "JSON_KEY_VALUE(" ++ n.qualify field ++ ", '$')"

def JsonColumn.written (c : JsonColumn) : String :=
  c.property ++ " " ++ c.type ++ " PATH '" ++ c.path ++ "'"

namespace JsonTable

def named (name : String) : JsonTable := ⟨name, none, "$", []⟩

/-- Rows from the document in `field`, at `path`. -/
def fromDocument (t : JsonTable) (field path : String) : JsonTable :=
  { t with source := some (.document field), path }

/-- Rows from the pairs of the object in `field`, at `path`. -/
def fromKeyValue (t : JsonTable) (field path : String) : JsonTable :=
  { t with source := some (.keyValue field), path }

def column (t : JsonTable) (property type path : String) : JsonTable :=
  { t with columns := t.columns ++ [⟨property, type, path⟩] }

def sourceFields (t : JsonTable) : List String := (t.source.map JsonSource.field).toList

/-- The source as it follows the base table in FROM. -/
def script (n : Naming) (t : JsonTable) : Script :=
  match t.source, t.columns with
  | none, _ | _, [] => [.fail (.incompleteJsonTable t.name)]
  | some source, columns =>
    [.text (", JSON_TABLE(" ++ source.written n ++ ", '" ++ t.path ++ "' COLUMNS ("
      ++ ", ".intercalate (columns.map JsonColumn.written) ++ ")) " ++ t.name)]

end JsonTable

end SqlStatement
