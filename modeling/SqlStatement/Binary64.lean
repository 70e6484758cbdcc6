/-!
# Binary64 numbers

A floating point number is kept as its sixty-four bits.  A finite one has the
magnitude `significand * 2 ^ exponent`, read off the bits in exact integers.

* `ofBinary32`: a thirty-two bit number widened without loss.
* `agrees`: equality as data, under which all NaNs are one and the two zeros
  differ.
-/

namespace SqlStatement

structure Binary64 where
  bits : UInt64
deriving DecidableEq

namespace Binary64

def isNegative (x : Binary64) : Bool := Nat.pow 2 63 ≤ x.bits.toNat

def exponentField (x : Binary64) : Nat := x.bits.toNat / Nat.pow 2 52 % Nat.pow 2 11

def fraction (x : Binary64) : Nat := x.bits.toNat % Nat.pow 2 52

def isNaN (x : Binary64) : Bool := x.exponentField == 2047 && x.fraction != 0

def isInfinite (x : Binary64) : Bool := x.exponentField == 2047 && x.fraction == 0

def isFinite (x : Binary64) : Bool := x.exponentField != 2047

def significand (x : Binary64) : Nat :=
  if x.exponentField = 0 then x.fraction else Nat.pow 2 52 + x.fraction

def exponent (x : Binary64) : Int := (max x.exponentField 1 : Nat) - 1075

/-- A power of two above the least normal one: its lower neighbour is half as far away as its
upper one. -/
def isBinadeStart (x : Binary64) : Bool := x.fraction == 0 && x.exponentField > 1

def agrees (x y : Binary64) : Bool :=
  x == y || x.isNaN && y.isNaN

@[simp] theorem agrees_self (x : Binary64) : x.agrees x = true := by simp [agrees]

/-! ### Widening -/

def ofFields (negative : Bool) (exponentField fraction : Nat) : Binary64 :=
  ⟨.ofNat ((if negative then Nat.pow 2 63 else 0) + exponentField * Nat.pow 2 52 + fraction)⟩

/-- The number whose thirty-two bits are `w`: eight exponent bits biased by 127 and twenty-three
fraction bits.  A subnormal one is normal in the wider format. -/
def ofBinary32 (w : UInt32) : Binary64 :=
  let negative : Bool := Nat.pow 2 31 ≤ w.toNat
  let e := w.toNat / Nat.pow 2 23 % Nat.pow 2 8
  let f := w.toNat % Nat.pow 2 23
  if e = 255 then ofFields negative 2047 (f * Nat.pow 2 29)
  else if e ≠ 0 then ofFields negative (e + 896) (f * Nat.pow 2 29)
  else if f = 0 then ofFields negative 0 0
  else ofFields negative (f.log2 + 874) ((f - Nat.pow 2 f.log2) * Nat.pow 2 (52 - f.log2))

end Binary64

end SqlStatement
