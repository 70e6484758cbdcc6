import SqlStatement.Naming

/-!
# Entries of an ORDER BY list

The text form is `field[ DESC|ASC]`, the direction in any case behind the last
blank.
-/

namespace SqlStatement

structure OrderField where
  field : String
  descending : Bool
deriving DecidableEq, Repr

namespace OrderField

def asc (field : String) : OrderField := ⟨field, false⟩

def desc (field : String) : OrderField := ⟨field, true⟩

/-- A direction, its letters in any case. -/
def isDirection (direction : String) (l : List Char) : Bool :=
  l.map Char.toLower == direction.toList

def ofText (s : String) : OrderField :=
  let l := Text.trim s.toList
  match Text.cutLast ' ' l with
  | some (field, direction) =>
    if isDirection "desc" direction then desc (String.ofList (Text.trim field))
    else if isDirection "asc" direction then asc (String.ofList (Text.trim field))
    else asc (String.ofList l)
  | none => asc (String.ofList l)

def written (n : Naming) (o : OrderField) : String :=
  n.qualify o.field ++ if o.descending then " DESC" else ""

end OrderField

end SqlStatement
