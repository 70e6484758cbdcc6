import SqlStatement.Binary64

/-!
# JSON documents

A number is an integer or a finite binary64.  The members of an object stand in
strictly ascending order of their keys, so a document has one form.

* `Json.ofBinary64`: a number that is not finite has no JSON form and becomes
  `null`.
* `Json.ofMembers`: an object from any list of members, a later one replacing an
  earlier one of the same key.
-/

namespace SqlStatement

inductive Json
  | null
  | bool (b : Bool)
  | integer (n : Int)
  | number (x : Binary64)
  | string (s : String)
  | array (items : List Json)
  | object (members : List (String × Json))

namespace Json

def ofBinary64 (x : Binary64) : Json :=
  if x.isFinite then .number x else .null

/-- Puts a member in its place, over one of the same key. -/
def insertMember (key : String) (value : Json) : List (String × Json) → List (String × Json)
  | [] => [(key, value)]
  | m :: rest =>
    if key < m.1 then (key, value) :: m :: rest
    else if key = m.1 then (key, value) :: rest
    else m :: insertMember key value rest

def ofMembers (members : List (String × Json)) : Json :=
  .object (members.foldl (fun l m => insertMember m.1 m.2 l) [])

end Json

end SqlStatement
