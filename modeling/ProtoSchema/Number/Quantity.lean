import ProtoSchema.Number.FloatText

/-!
Numbers as they are given: whole numbers, truth values counted as zero and one, and floating point
numbers. They are compared by what they amount to, exactly; what is not a number is never in order.
-/

namespace ProtoSchema.Number

inductive Quantity where
  | whole (n : Int)
  | truth (b : Bool)
  | real (x : Binary64)
  deriving DecidableEq, Repr

/-- What a quantity amounts to: `m * 2 ^ e`, or an infinity. -/
inductive Amount where
  | finite (m : Int) (e : Int)
  | infinite (negative : Bool)
  deriving DecidableEq, Repr

/-- Both are written over the smaller of the two powers. -/
def Amount.le : Amount → Amount → Bool
  | .finite m e, .finite n f =>
    m * twoPow (e - min e f).toNat ≤ n * twoPow (f - min e f).toNat
  | .finite _ _, .infinite negative => !negative
  | .infinite negative, b => negative || b == .infinite false

namespace Quantity

/-- The whole number that is given, if it is given as one. -/
def whole? : Quantity → Option Int
  | whole n => some n
  | truth b => some (if b then 1 else 0)
  | real _ => none

def amount? : Quantity → Option Amount
  | real x =>
    if x.isNaN then none
    else if x.isFinite then some (.finite x.signed x.exponent)
    else some (.infinite x.isNegative)
  | q => q.whole?.map (.finite · 0)

def le (p q : Quantity) : Bool :=
  match p.amount?, q.amount? with
  | some a, some b => a.le b
  | _, _ => false

/-- Less than zero. -/
def isNegative (q : Quantity) : Bool := q.le (.whole 0) && !(whole 0).le q

/-- Equal in value. -/
def same : Quantity → Quantity → Bool
  | real x, real y => x.same y
  | real x, q => q.whole?.any x.equalsInt
  | p, real y => p.whole?.any y.equalsInt
  | p, q => p.whole? == q.whole?

def text : Quantity → String
  | whole n => toString n
  | truth b => if b then "True" else "False"
  | real x => x.text

theorem le_whole (m n : Int) : (whole m).le (whole n) = decide (m ≤ n) := by
  simp [le, amount?, whole?, Amount.le, twoPow]

theorem isNegative_whole (n : Int) : (whole n).isNegative = decide (n < 0) := by
  simp only [isNegative, le_whole]
  by_cases h : n < 0 <;> simp [h] <;> omega

end Quantity

end ProtoSchema.Number
