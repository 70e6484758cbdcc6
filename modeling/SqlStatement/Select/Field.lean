import SqlStatement.Naming
import SqlStatement.Text.UpperCase

/-!
# Entries of a select list

An entry selects a field, bare or inside a function, under an output alias if it
has one.  Its text form is `[function|]field[ alias]`.

* `SelectField.ofText`: reads the text form.  The bar is the first one, the blank
  in front of the alias the first one after it.
* `SelectField.expression`: the entry as SQL, `SelectField.written` with its
  alias.
* `SelectField.outputName`: the name of the result column.
-/

namespace SqlStatement

structure SelectField where
  field : String
  function : Option String
  output : Option String
deriving DecidableEq, Repr

namespace SelectField

/-- The field as it stands. -/
def plain (field : String) : SelectField := ⟨field, none, none⟩

def withFunction (f : SelectField) (function : String) : SelectField :=
  { f with function := some function }

def withOutput (f : SelectField) (output : String) : SelectField := { f with output := some output }

/-! ### The text form -/

/-- A text, or nothing for the empty one. -/
def nonempty (l : List Char) : Option String :=
  if l.isEmpty then none else some (String.ofList l)

/-- A field and, behind the first blank, its output alias. -/
def ofTrimmed (function : Option String) (l : List Char) : SelectField :=
  match Text.cutFirst ' ' l with
  | some (field, output) => ⟨String.ofList field, function, nonempty (Text.trim output)⟩
  | none => ⟨String.ofList l, function, none⟩

def ofText (s : String) : SelectField :=
  match Text.cutFirst '|' s.toList with
  | some (function, rest) => ofTrimmed (nonempty function) (Text.trim rest)
  | none => ofTrimmed none (Text.trim s.toList)

/-! ### As SQL -/

/-- The function that adds up a column and gives zero for no rows. -/
def sumZero : String := "sum_zero"

/-- All columns are written bare, whatever the aliases. -/
def target (n : Naming) (f : SelectField) : String :=
  if f.field = "*" then "*" else n.qualify f.field

def expression (n : Naming) (f : SelectField) : String :=
  match f.function with
  | none => f.target n
  | some function =>
    if function = sumZero then "IFNULL(SUM(" ++ f.target n ++ "), 0)"
    else String.ofList (Text.upper function.toList) ++ "(" ++ f.target n ++ ")"

def written (n : Naming) (f : SelectField) : String :=
  match f.output with
  | none => f.expression n
  | some output => f.expression n ++ " " ++ output

/-- The output alias, or the field without its qualifiers. -/
def outputName (f : SelectField) : String := f.output.getD (Field.column f.field)

end SelectField

end SqlStatement
