import SqlStatement.Json.Text

/-!
# Values

A value is bound to a placeholder, or written into the text as a literal where a
join compares a column with something fixed.

* `Value.display`: the raw form, for people: nothing is quoted or escaped.
* `Value.literal`: the SQL form.  In a quoted text a quote and a backslash are
  each written twice.
* `Value.agrees`: equality as data, which every value has with itself.
-/

namespace SqlStatement

inductive Value
  | null
  | bool (b : Bool)
  | int (n : Int64)
  | uint (n : UInt64)
  | float (x : Binary64)
  | text (s : String)
  | blob (bytes : List UInt8)
  | json (document : Json)

namespace Value

def isNull : Value → Bool
  | .null => true
  | _ => false

/-! ### Parts of the two forms -/

def hexDigit (n : Nat) : Char :=
  if n < 10 then Char.ofNat (48 + n) else Char.ofNat (55 + n)

def hex (bytes : List UInt8) : List Char :=
  bytes.flatMap fun b => [hexDigit (b.toNat / 16), hexDigit (b.toNat % 16)]

/-- All digits, however many, a half going up; a whole number has no point. -/
def floatText (x : Binary64) : List Char :=
  if x.isNaN then ['N', 'a', 'N']
  else (if x.isNegative then ['-'] else [])
    ++ if x.isInfinite then ['i', 'n', 'f'] else (x.decimal .up).positional

def quoteChar (c : Char) : List Char :=
  if c = '\'' then ['\'', '\''] else if c = '\\' then ['\\', '\\'] else [c]

def quoted (l : List Char) : List Char :=
  '\'' :: l.flatMap quoteChar ++ ['\'']

/-! ### The two forms -/

def displayChars : Value → List Char
  | .null => ['N', 'U', 'L', 'L']
  | .bool true => ['t', 'r', 'u', 'e']
  | .bool false => ['f', 'a', 'l', 's', 'e']
  | .int n => n.toInt.repr.toList
  | .uint n => n.toNat.repr.toList
  | .float x => floatText x
  | .text s => s.toList
  | .blob bytes => hex bytes
  | .json document => document.text

def literalChars : Value → List Char
  | .bool true => ['T', 'R', 'U', 'E']
  | .bool false => ['F', 'A', 'L', 'S', 'E']
  | .text s => quoted s.toList
  | .blob bytes => 'X' :: '\'' :: hex bytes ++ ['\'']
  | .json document => quoted document.text
  | v => displayChars v

def display (v : Value) : String := String.ofList v.displayChars

def literal (v : Value) : String := String.ofList v.literalChars

/-! ### Equality -/

/-- Documents agree when they are written alike. -/
def agrees : Value → Value → Bool
  | .null, .null => true
  | .bool a, .bool b => a == b
  | .int a, .int b => a == b
  | .uint a, .uint b => a == b
  | .float a, .float b => a.agrees b
  | .text a, .text b => a == b
  | .blob a, .blob b => a == b
  | .json a, .json b => a.text == b.text
  | _, _ => false

@[simp] theorem agrees_self (v : Value) : v.agrees v = true := by cases v <;> simp [agrees]

end Value

end SqlStatement
