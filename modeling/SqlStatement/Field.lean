import SqlStatement.Text.Cut

/-!
# Fields

A field is a text.  With a point in it, it is qualified: what stands before the
first point is the alias of a table, and the field is written as given.  Without
one it belongs to the table the statement is about.

* `isQualified_iff_qualifier?`: the qualified fields are those with a qualifier.
-/

namespace SqlStatement.Field

def isQualified (field : String) : Bool := field.toList.contains '.'

/-- The alias in front of the first point. -/
def qualifier? (field : String) : Option String :=
  (Text.cutFirst '.' field.toList).map fun p => String.ofList p.1

/-- The field without its qualifiers: what stands after the last point. -/
def column (field : String) : String :=
  match Text.cutLast '.' field.toList with
  | some p => String.ofList p.2
  | none => field

/-- The field of the table known as `name`. -/
def ofTable (name field : String) : String := name ++ "." ++ field

/-- The qualifiers that occur among some fields. -/
def qualifiers (fields : List String) : List String := fields.filterMap qualifier?

theorem isQualified_iff_qualifier? {field : String} :
    isQualified field = true ↔ (qualifier? field).isSome = true := by
  rw [isQualified, qualifier?, Option.isSome_map, Option.isSome_iff_ne_none, ne_eq,
    Text.cutFirst_eq_none_iff, Classical.not_not, List.contains_iff_mem]

end SqlStatement.Field
