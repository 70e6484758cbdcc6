import SqlStatement.Json.Document
import SqlStatement.Decimal.Layout

/-!
# The text of a JSON document

Compact, members in key order.  Strings escape the quotation mark, the backslash
and the control characters below the blank, nothing else.

* `Json.numberText`: plain notation with a digit after the point for magnitudes
  from `1e-5` up to, not including, `1e16`; scientific notation outside.
* `Json.text`: the whole document.
-/

namespace SqlStatement.Json

def hexDigit (n : Nat) : Char :=
  if n < 10 then Char.ofNat (48 + n) else Char.ofNat (87 + n)

def escapeChar (c : Char) : List Char :=
  if c = '"' then ['\\', '"']
  else if c = '\\' then ['\\', '\\']
  else if c = '\n' then ['\\', 'n']
  else if c = '\r' then ['\\', 'r']
  else if c = '\t' then ['\\', 't']
  else if c.toNat = 8 then ['\\', 'b']
  else if c.toNat = 12 then ['\\', 'f']
  else if c.toNat < 32 then
    ['\\', 'u', '0', '0', hexDigit (c.toNat / 16), hexDigit (c.toNat % 16)]
  else [c]

def stringText (s : String) : List Char :=
  '"' :: s.toList.flatMap escapeChar ++ ['"']

/-- Plain from `1e-5` up to `1e16`, a half going to the even digit. -/
def numberText (x : Binary64) : List Char :=
  let d := x.decimal .toEven
  (if x.isNegative then ['-'] else [])
    ++ if d.exponent < -5 || 16 ≤ d.exponent then d.scientific
       else d.positional ++ if d.isWhole then ['.', '0'] else []

def joined (parts : List (List Char)) : List Char :=
  List.intercalate [','] parts

mutual

def text : Json → List Char
  | .null => ['n', 'u', 'l', 'l']
  | .bool true => ['t', 'r', 'u', 'e']
  | .bool false => ['f', 'a', 'l', 's', 'e']
  | .integer n => n.repr.toList
  | .number x => numberText x
  | .string s => stringText s
  | .array items => '[' :: joined (itemTexts items) ++ [']']
  | .object members => '{' :: joined (memberTexts members) ++ ['}']

def itemTexts : List Json → List (List Char)
  | [] => []
  | j :: rest => text j :: itemTexts rest

def memberTexts : List (String × Json) → List (List Char)
  | [] => []
  | (key, j) :: rest => (stringText key ++ ':' :: text j) :: memberTexts rest

end

end SqlStatement.Json
