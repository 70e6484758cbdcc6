import SqlStatement.Decimal.Shortest

/-!
# Layouts of a decimal

* `positional`: all digits around the point, `0.` in front of a number below
  one, no point in a whole number.
* `scientific`: one digit before the point, an exponent with its sign.
-/

namespace SqlStatement.Decimal

def zeros (n : Int) : List Char := List.replicate n.toNat '0'

def positional (d : Decimal) : List Char :=
  if d.point ≤ 0 then '0' :: '.' :: (zeros (-d.point) ++ d.digits)
  else if d.digits.length ≤ d.point then d.digits ++ zeros (d.point - d.digits.length)
  else d.digits.take d.point.toNat ++ '.' :: d.digits.drop d.point.toNat

def isWhole (d : Decimal) : Bool := d.digits.length ≤ d.point

/-- The power of ten of the first digit. -/
def exponent (d : Decimal) : Int := d.point - 1

def signed (n : Int) : List Char :=
  (if n < 0 then '-' else '+') :: Nat.toDigits 10 n.natAbs

def scientific (d : Decimal) : List Char :=
  d.digits.take 1 ++ (if d.digits.length ≤ 1 then [] else '.' :: d.digits.drop 1)
    ++ 'e' :: signed d.exponent

end SqlStatement.Decimal
