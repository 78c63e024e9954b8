/-!
Floating point numbers of 64 bits, given by their bits.

A finite number is a sign, a significand and a power of two. Whole numbers are rounded to the
nearest such number, a tie to the even significand. Comparison with a whole number is exact.
-/

namespace ProtoSchema.Number

def twoPow (n : Nat) : Nat := Nat.pow 2 n

def tenPow (n : Nat) : Nat := Nat.pow 10 n

theorem tenPow_pos (n : Nat) : 0 < tenPow n := Nat.pow_pos (by decide)

theorem tenPow_le {m n : Nat} (h : m ≤ n) : tenPow m ≤ tenPow n :=
  Nat.pow_le_pow_right (by decide) h

structure Binary64 where
  bits : UInt64
  deriving DecidableEq, Repr

namespace Binary64

/-! ### Bits -/

def isNegative (x : Binary64) : Bool := twoPow 63 ≤ x.bits.toNat

def biasedExponent (x : Binary64) : Nat := x.bits.toNat / twoPow 52 % twoPow 11

def fraction (x : Binary64) : Nat := x.bits.toNat % twoPow 52

def isFinite (x : Binary64) : Bool := x.biasedExponent ≠ 2047

def isNaN (x : Binary64) : Bool := x.biasedExponent = 2047 ∧ x.fraction ≠ 0

/-- The magnitude of a finite number is `significand * 2 ^ exponent`. -/
def significand (x : Binary64) : Nat :=
  if x.biasedExponent = 0 then x.fraction else twoPow 52 + x.fraction

def exponent (x : Binary64) : Int :=
  if x.biasedExponent = 0 then -1074 else x.biasedExponent - 1075

/-- A finite number is `signed * 2 ^ exponent`. -/
def signed (x : Binary64) : Int := if x.isNegative then -x.significand else x.significand

/-- Either zero. -/
def isZero (x : Binary64) : Bool := x.isFinite ∧ x.significand = 0

/-- The number with a sign, a biased exponent and a fraction. -/
def ofParts (negative : Bool) (biasedExponent fraction : Nat) : Binary64 :=
  ⟨UInt64.ofNat ((if negative then twoPow 63 else 0) + biasedExponent * twoPow 52 + fraction)⟩

def zero (negative : Bool) : Binary64 := ofParts negative 0 0

def infinity (negative : Bool) : Binary64 := ofParts negative 2047 0

/-- One of the many that are not a number. -/
def notNumber : Binary64 := ofParts false 2047 (twoPow 51)

/-! ### From whole numbers -/

/-- A quotient by a power of two, rounded to the nearest whole number, a tie to the even one. -/
def roundShift (n shift : Nat) : Nat :=
  let q := n / twoPow shift
  let r := n % twoPow shift
  if twoPow shift < 2 * r ∨ (2 * r = twoPow shift ∧ q % 2 = 1) then q + 1 else q

/-- The number nearest to a whole number, unless it is too large to have one. -/
def ofInt? (n : Int) : Option Binary64 :=
  let a := n.natAbs
  if a = 0 then some ⟨0⟩
  else
    let shift := a.log2 - 52
    let q := if a.log2 ≤ 52 then a * twoPow (52 - a.log2) else roundShift a shift
    let carried := q = twoPow 53
    let biased := a.log2 + 1023 + if carried then 1 else 0
    if 2047 ≤ biased then none
    else some (ofParts (n < 0) biased (if carried then 0 else q - twoPow 52))

/-! ### Comparison -/

/-- The number is a whole number, and this one. -/
def equalsInt (x : Binary64) (n : Int) : Bool :=
  x.isFinite &&
    if 0 ≤ x.exponent then x.signed * twoPow x.exponent.toNat = n
    else x.signed = n * twoPow (-x.exponent).toNat

/-- The numbers are the same: both zeros are, and what is not a number is the same as
its own bits. -/
def same (x y : Binary64) : Bool := x = y || (x.isZero && y.isZero)

end Binary64

end ProtoSchema.Number
