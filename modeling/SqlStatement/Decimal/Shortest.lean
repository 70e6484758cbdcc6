import SqlStatement.Binary64
import SqlStatement.Text.Blank

/-!
# Shortest decimals

The reals that round to a finite number form an interval.  Its shortest decimal
has the fewest digits of all decimals inside, and is the nearest of those to the
number itself.  Everything is done in exact integers over one denominator.

* `Interval`: the ends and the number itself, over a common denominator.
* `Interval.onGrid`: the better of the number's two neighbours among the
  multiples of a power of ten, if one of them lies inside.
* `Interval.shortest`: the first of the grids with one to seventeen digits that
  has a neighbour inside.
-/

namespace SqlStatement

/-- The number `0.d₁d₂…dₖ * 10 ^ point`, the digits without trailing zeros. -/
structure Decimal where
  digits : List Char
  point : Int
deriving DecidableEq

/-- The decimal `n * 10 ^ p`, for a positive `n`. -/
def Decimal.scaled (n : Nat) (p : Int) : Decimal :=
  let digits := Nat.toDigits 10 n
  { digits := Text.dropEndWhile (· == '0') digits, point := digits.length + p }

/-- Which neighbour is taken when both are equally near. -/
inductive Tie
  | toEven
  | up

/-- `low / scale ≤ number / scale ≤ high / scale`, the ends included when `closed`. -/
structure Interval where
  low : Nat
  number : Nat
  high : Nat
  scale : Nat
  closed : Bool

namespace Interval

/-- The reals that round to the magnitude of `x`: halfway to each neighbour, the ends included
when the significand is even. -/
def ofBinary64 (x : Binary64) : Interval :=
  let up := Nat.pow 2 (x.exponent - 2).toNat
  { low := (4 * x.significand - if x.isBinadeStart then 1 else 2) * up
    number := 4 * x.significand * up
    high := (4 * x.significand + 2) * up
    scale := Nat.pow 2 (2 - x.exponent).toNat
    closed := x.significand % 2 == 0 }

/-- The interval in units of `10 ^ p`. -/
def inUnits (i : Interval) (p : Int) : Interval :=
  let down := Nat.pow 10 (-p).toNat
  { i with
    low := i.low * down
    number := i.number * down
    high := i.high * down
    scale := i.scale * Nat.pow 10 p.toNat }

def contains (i : Interval) (n : Nat) : Bool :=
  if i.closed then i.low ≤ n * i.scale && n * i.scale ≤ i.high
  else i.low < n * i.scale && n * i.scale < i.high

/-- The nearer of two neighbours `n` and `n + 1`. -/
def nearer (i : Interval) (tie : Tie) (n : Nat) : Nat :=
  match compare (2 * i.number) ((2 * n + 1) * i.scale), tie with
  | .lt, _ => n
  | .gt, _ => n + 1
  | .eq, .up => n + 1
  | .eq, .toEven => if n % 2 = 0 then n else n + 1

/-- The whole number inside, next to the number itself. -/
def whole? (i : Interval) (tie : Tie) : Option Nat :=
  let n := i.number / i.scale
  match i.contains n, i.contains (n + 1) with
  | true, true => some (i.nearer tie n)
  | true, false => some n
  | false, true => some (n + 1)
  | false, false => none

/-- The greatest `e` with `10 ^ e ≤ number`, for a positive number. -/
def magnitude (i : Interval) : Int :=
  if i.scale ≤ i.number then (Nat.toDigits 10 (i.number / i.scale)).length - 1
  else -(Nat.toDigits 10 ((i.scale - 1) / i.number)).length

/-- The decimal of the grid of multiples of `10 ^ p`, if it has one inside. -/
def onGrid (i : Interval) (tie : Tie) (p : Int) : Option Decimal :=
  ((i.inUnits p).whole? tie).map (Decimal.scaled · p)

/-- The first hit among the grids with one to seventeen digits. -/
def shortest (i : Interval) (tie : Tie) : Decimal :=
  let e := i.magnitude
  ((List.range 17).findSome? fun k : Nat => i.onGrid tie (e - k)).getD
    (Decimal.scaled ((i.inUnits (e - 16)).number / (i.inUnits (e - 16)).scale) (e - 16))

end Interval

/-- The shortest decimal of a finite number's magnitude. -/
def Binary64.decimal (tie : Tie) (x : Binary64) : Decimal :=
  if x.significand = 0 then ⟨['0'], 1⟩ else (Interval.ofBinary64 x).shortest tie

end SqlStatement
