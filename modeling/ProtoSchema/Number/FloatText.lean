import ProtoSchema.Number.Shortest

/-!
Floating point numbers as text.

The digits are those of the shortest decimal. The point is written where it stands for powers of ten
from `-4` up to `15`, and an exponent with a sign and at least two digits is written for all others.
-/

namespace ProtoSchema.Number

/-- Which powers of ten of the leading digit are written positionally, and how the others are. -/
structure FloatStyle where
  lowest : Int
  limit : Int
  exponentDigits : Nat

def FloatStyle.usual : FloatStyle := ⟨-4, 16, 2⟩

/-- The point among the digits, with zeros where it stands outside of them. -/
def positional (digits : List Char) (lead : Int) : List Char :=
  if lead < 0 then ['0', '.'] ++ List.replicate (-lead - 1).toNat '0' ++ digits
  else
    let whole := lead.toNat + 1
    if digits.length ≤ whole then
      digits ++ List.replicate (whole - digits.length) '0' ++ ['.', '0']
    else digits.take whole ++ '.' :: digits.drop whole

/-- An exponent with its sign. -/
def exponentText (width : Nat) (exponent : Int) : List Char :=
  let digits := Nat.toDigits 10 exponent.natAbs
  (if exponent < 0 then '-' else '+') :: (List.replicate (width - digits.length) '0' ++ digits)

/-- One digit, the others behind a point, and the exponent. -/
def scientific (width : Nat) (digits : List Char) (lead : Int) : List Char :=
  let mantissa := match digits with
    | [] => []
    | [d] => [d]
    | d :: ds => d :: '.' :: ds
  mantissa ++ 'e' :: exponentText width lead

def Decimal.text (style : FloatStyle) (d : Decimal) : List Char :=
  let digits := Nat.toDigits 10 d.digits
  let lead := d.exponent + digits.length - 1
  if style.lowest ≤ lead ∧ lead < style.limit then positional digits lead
  else scientific style.exponentDigits digits lead

/-- The text without a sign. -/
def Binary64.magnitudeText (x : Binary64) : String :=
  if x.isFinite then
    if x.significand = 0 then "0.0"
    else String.ofList ((shortest x.significand x.exponent).text .usual)
  else "inf"

def Binary64.text (x : Binary64) : String :=
  if x.isNaN then "nan"
  else if x.isNegative then "-" ++ x.magnitudeText
  else x.magnitudeText

end ProtoSchema.Number
