import ProtoSchema.Number.Binary64

/-!
The shortest decimal that reads back as a given floating point number.

The reals that round to a number form an interval around it, closed when its significand is even.
For one digit, two digits and so on, the two neighbours of the number on that decimal grid are
looked at; the first grid with a neighbour in the interval gives the digits. Of two neighbours the
nearer is taken, and of two equally near ones the even.
-/

namespace ProtoSchema.Number

/-- A positive decimal `digits * 10 ^ exponent`. -/
structure Decimal where
  digits : Nat
  exponent : Int
  deriving DecidableEq, Repr

/-- A number, the ends of the interval that rounds to it, and a grid, over one common unit. -/
structure Neighbourhood where
  low : Nat
  value : Nat
  high : Nat
  closed : Bool
  grid : Nat
  deriving Repr

namespace Neighbourhood

def contains (n : Neighbourhood) (point : Nat) : Bool :=
  if n.closed then n.low ≤ point * n.grid && point * n.grid ≤ n.high
  else n.low < point * n.grid && point * n.grid < n.high

/-- The grid point above the value is nearer than the one below, or as near and even. -/
def prefersUpper (n : Neighbourhood) : Bool :=
  let below := n.value / n.grid
  let rest := 2 * (n.value % n.grid)
  n.grid < rest || (rest = n.grid && below % 2 = 1)

/-- The grid point that stands for the value, if the interval has one. -/
def point? (n : Neighbourhood) : Option Nat :=
  let below := n.value / n.grid
  match n.contains below, n.contains (below + 1) with
  | true, true => some (if n.prefersUpper then below + 1 else below)
  | true, false => some below
  | false, true => some (below + 1)
  | false, false => none

end Neighbourhood

/-- The neighbourhood of `m * 2 ^ q` with the grid `10 ^ k`. The interval is narrower below a
significand that starts a new power of two. -/
def neighbourhood (m : Nat) (q : Int) (k : Int) : Neighbourhood :=
  let scale := twoPow (q - 2).toNat * tenPow (-k).toNat
  let lower := if m = twoPow 52 ∧ -1074 < q then 1 else 2
  { low := (4 * m - lower) * scale
    value := 4 * m * scale
    high := (4 * m + 2) * scale
    closed := m % 2 = 0
    grid := twoPow (2 - q).toNat * tenPow k.toNat }

/-- The power of ten of the leading digit of `m * 2 ^ q`. -/
def leadingExponent (m : Nat) (q : Int) : Int :=
  let magnified := m * twoPow q.toNat * tenPow 400 / twoPow (-q).toNat
  (Nat.toDigits 10 magnified).length - 401

/-- A decimal without the zeros that end its digits. -/
def Decimal.trim (d : Decimal) : Nat → Decimal
  | 0 => d
  | n + 1 => if d.digits % 10 = 0 then trim ⟨d.digits / 10, d.exponent + 1⟩ n else d

/-- The shortest decimal for `m * 2 ^ q`; seventeen digits always suffice. -/
def shortest (m : Nat) (q : Int) : Decimal :=
  let lead := leadingExponent m q
  let candidate (places : Nat) : Option Decimal :=
    let k := lead - places
    (neighbourhood m q k).point?.map fun point => Decimal.trim ⟨point, k⟩ 17
  ((List.range 17).findSome? candidate).getD ⟨m, 0⟩

end ProtoSchema.Number
