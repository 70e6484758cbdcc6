import SqlStatement.Join.Script
import SqlStatement.Select.Plan

/-!
# The clauses of a select

Each clause is one line: the select list, FROM with its JSON tables, the joins,
WHERE, GROUP BY, ORDER BY, LIMIT and FOR UPDATE.  A clause with nothing to say is
left out.  What is itself a statement, or holds one, comes in as a script.
-/

namespace SqlStatement

/-- A JSON sub-select as it is written, with its output name. -/
structure NamedScript where
  name : String
  body : Script

namespace Selection

def items (n : Naming) (s : Selection) (json : List NamedScript) : List Script :=
  s.fields.map (fun f => [.text (f.written n)]) ++ json.map fun j => j.body ++ [.text (" " ++ j.name)]

/-- All columns if nothing is listed. -/
def listScript (n : Naming) (s : Selection) (json : List NamedScript) : Script :=
  .text (if s.distinct then "SELECT DISTINCT " else "SELECT ")
    :: (if (s.items n json).isEmpty then [.text "*"] else Script.joined ", " (s.items n json))
    ++ [.text "\n"]

def key (name : String) : String := "'" ++ name ++ "', "

/-- One pair of a key and an expression for each column. -/
def members (n : Naming) (s : Selection) (json : List NamedScript) : List Script :=
  s.fields.map (fun f => [.text (key f.outputName ++ f.expression n)])
    ++ json.map fun j => .text (key j.name) :: j.body

def objectScript (n : Naming) (s : Selection) (json : List NamedScript) : Script :=
  .text "SELECT JSON_ARRAYAGG(JSON_OBJECT(" :: Script.joined ", " (s.members n json)
    ++ [.text "))\n"]

def fromScript (n : Naming) (table : String) (s : Selection) : Script :=
  [.text "FROM ", .table table, .text n.suffix] ++ s.jsonTables.flatMap (JsonTable.script n)
    ++ [.text "\n"]

def listed (heading : String) : List String → List Piece
  | [] => []
  | items => [.text (heading ++ ", ".intercalate items ++ "\n")]

def tailScript (n : Naming) (s : Selection) : Script :=
  listed "GROUP BY " (s.group.map n.qualify)
    ++ listed "ORDER BY " (s.order.map (OrderField.written n))
    ++ (if 0 < s.limit then
          [.text ("LIMIT " ++ s.offset.toNat.repr ++ "," ++ s.limit.toNat.repr ++ "\n")] else [])
    ++ (if s.locked then [.text "FOR UPDATE\n"] else [])

end Selection

/-! ### WHERE -/

/-- The equality that ties a sub-select to the row around it. -/
def Correlation.term (n : Naming) (c : Correlation) : Script :=
  [.text (n.qualify c.inner ++ "=" ++ c.outer)]

def Source.rowTerm (n : Naming) (id : UInt64) : Script :=
  [.text (n.qualify "id" ++ "=" ++ id.toNat.repr)]

/-- The terms that must all hold, or no line at all. -/
def whereScript (n : Naming) (correlation : Option Correlation) (row : Option UInt64)
    (terms : List Script) : Script :=
  match (correlation.map (Correlation.term n)).toList ++ (row.map (Source.rowTerm n)).toList ++ terms with
  | [] => []
  | all => .text "WHERE " :: Script.joined " AND " all ++ [.text "\n"]

namespace Filter

/-- Whether an operator may be used on a field after those already seen on it, the latest first. -/
def check (seen : List (String × Operator)) (field : String) (next : Operator) :
    Except CompileError Unit :=
  match seen.lookup field with
  | some current => current.checkFollowedBy next field
  | none => .ok ()

def guarded (verdict : Except CompileError Unit) (s : Script) : Script :=
  match verdict with
  | .error e => [.fail e]
  | .ok () => s

/-- Alternatives in parentheses; none at all give no term. -/
def parenthesised : List Script → List Script
  | [] => []
  | alternatives => [.text "(" :: Script.joined " OR " alternatives ++ [.text ")"]]

/-- The values of a membership test, of which there must be one. -/
def listOperand (field : String) (operator : Operator) : List Value → Script
  | [] => [.fail (.emptyInList field operator)]
  | values => .text " (" :: Script.placeholders values ++ [.text ")"]

def rangeOperand (low high : Value) : Script :=
  [.text " ", .placeholder low, .text " AND ", .placeholder high]

end Filter

end SqlStatement
