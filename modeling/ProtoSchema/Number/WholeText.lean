import ProtoSchema.Number.Reading
import ProtoSchema.Report.Quoted

/-!
Texts read as whole numbers, and the limit to their digits.

A text is a row of digits with an optional sign, with blanks around it. Digits may be those of any
script, and single underscores may stand between them. The number of digits is limited, both of what
is read and of what is written.
-/

namespace ProtoSchema.Number

/-- Why a text is not read as a whole number, or a whole number not written as a text. -/
inductive WholeError where
  | notWhole (text : String)
  | tooManyDigits (count : Nat)
  /-- A number has too many digits to be written. -/
  | tooLong
  deriving DecidableEq, Repr

/-- The most digits that are read or written. -/
def digitLimit : Nat := 4300

/-- The number has more digits than are written; the sign does not count. -/
def tooLong (n : Int) : Bool := digitLimit < (Nat.toDigits 10 n.natAbs).length

theorem lt_length_toDigits_iff {k n : Nat} (hk : 0 < k) :
    k < (Nat.toDigits 10 n).length ↔ tenPow k ≤ n := by
  rw [← Nat.not_le, Nat.length_toDigits_le_iff (by decide) hk, Nat.not_lt]
  exact Iff.rfl

theorem tooLong_iff {n : Int} : tooLong n ↔ tenPow digitLimit ≤ n.natAbs := by
  rw [tooLong, decide_eq_true_iff, lt_length_toDigits_iff (by decide)]

theorem tooLong_tenPow {e : Nat} (h : digitLimit ≤ e) : tooLong (tenPow e) := by
  rw [tooLong_iff, Int.natAbs_natCast]
  exact tenPow_le h

private def limitExceeded : String :=
  "Exceeds the limit (" ++ toString digitLimit ++ " digits) for integer string conversion"

private def remedy : String := "; use sys.set_int_max_str_digits() to increase the limit"

def WholeError.message : WholeError → String
  | .notWhole text =>
    "invalid literal for int() with base 10: " ++ ((Report.quoteText text).take 200).toString
  | .tooManyDigits count =>
    limitExceeded ++ ": value has " ++ toString count ++ " digits" ++ remedy
  | .tooLong => limitExceeded ++ remedy

/-- A digit, or an underscore between digits. -/
def isGrouped (c : Char) : Bool := c = '_' || (digit? c).isSome

/-- The whole number that a text reads as. The limit is looked at before what follows the digits. -/
def wholeOfText? (text : String) : Except WholeError Int :=
  let (negative, unsigned) := signOf (trimmed text.toList)
  match ungrouped? false (unsigned.takeWhile isGrouped) with
  | none | some [] => .error (.notWhole text)
  | some grouped =>
    let digits := (leadingDigits grouped).1
    if digitLimit < digits.length then .error (.tooManyDigits digits.length)
    else if !(unsigned.dropWhile isGrouped).isEmpty then .error (.notWhole text)
    else .ok (if negative then -digitsValue digits else digitsValue digits)

end ProtoSchema.Number
