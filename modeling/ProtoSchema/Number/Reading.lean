import ProtoSchema.Number.Binary64

/-!
Texts read as floating point numbers.

A text is a decimal with an optional sign, point and exponent, or the name of an infinity or of what
is not a number, with blanks around it. Digits may be those of any script, and single underscores
may stand between digits. The number is the nearest one; of two equally near ones the even is taken.
-/

namespace ProtoSchema.Number

/-! ### Rounding -/

/-- A quotient rounded to the nearest whole number, a tie to the even one. -/
def roundQuotient (num den : Nat) : Nat :=
  let q := num / den
  let r := num % den
  if den < 2 * r ∨ (2 * r = den ∧ q % 2 = 1) then q + 1 else q

/-- The numerator and the denominator of `num / den / 2 ^ e`. -/
def scaled (num den : Nat) (e : Int) : Nat × Nat :=
  (num * twoPow (-e).toNat, den * twoPow e.toNat)

/-- The power of two for which `num / den` has 53 binary digits, or the least there is. -/
def binaryExponent (num den : Nat) : Int :=
  let e : Int := (num.log2 : Int) - den.log2 - 52
  let s := scaled num den e
  max (if s.1 / s.2 < twoPow 52 then e - 1 else e) (-1074)

namespace Binary64

/-- The number nearest to a positive quotient. -/
def ofRatio (negative : Bool) (num den : Nat) : Binary64 :=
  let e := binaryExponent num den
  let s := scaled num den e
  let q := roundQuotient s.1 s.2
  let carried := q = twoPow 53
  let biased := if q < twoPow 52 then 0 else (e + 1075).toNat + if carried then 1 else 0
  if 2047 ≤ biased then infinity negative
  else ofParts negative biased (if q < twoPow 52 then q else if carried then 0 else q - twoPow 52)

/-- The power of ten that a positive number reaches, but for a small error. -/
def decimalMagnitude (n : Nat) : Nat := n.log2 * 30103 / 100000

/-- The number nearest to `digits * 10 ^ exponent`. Far beyond the powers of ten that there are
numbers for, it is an infinity or zero. -/
def ofDecimal (negative : Bool) (digits : Nat) (exponent : Int) : Binary64 :=
  let lead := exponent + decimalMagnitude digits
  if digits = 0 ∨ lead < -400 then zero negative
  else if 400 < lead then infinity negative
  else ofRatio negative (digits * tenPow exponent.toNat) (tenPow (-exponent).toNat)

end Binary64

/-! ### Characters -/

/-- The zeros of all decimal digits; the digits of a script follow one another. -/
def zeros : List Nat :=
  [0x30, 0x0660, 0x06f0, 0x07c0, 0x0966, 0x09e6, 0x0a66, 0x0ae6, 0x0b66, 0x0be6, 0x0c66, 0x0ce6,
    0x0d66, 0x0de6, 0x0e50, 0x0ed0, 0x0f20, 0x1040, 0x1090, 0x17e0, 0x1810, 0x1946, 0x19d0, 0x1a80,
    0x1a90, 0x1b50, 0x1bb0, 0x1c40, 0x1c50, 0xa620, 0xa8d0, 0xa900, 0xa9d0, 0xa9f0, 0xaa50, 0xabf0,
    0xff10, 0x104a0, 0x10d30, 0x11066, 0x110f0, 0x11136, 0x111d0, 0x112f0, 0x11450, 0x114d0,
    0x11650, 0x116c0, 0x11730, 0x118e0, 0x11950, 0x11c50, 0x11d50, 0x11da0, 0x16a60, 0x16ac0,
    0x16b50, 0x1d7ce, 0x1d7d8, 0x1d7e2, 0x1d7ec, 0x1d7f6, 0x1e140, 0x1e2f0, 0x1e950, 0x1fbf0]

/-- The value of a digit. -/
def digit? (c : Char) : Option Nat :=
  (zeros.find? fun first => first ≤ c.toNat && c.toNat < first + 10).map (c.toNat - ·)

/-- Blanks that may stand around a number. -/
def blanks : List Nat :=
  [0x09, 0x0a, 0x0b, 0x0c, 0x0d, 0x20, 0x85, 0xa0, 0x1680, 0x2000, 0x2001, 0x2002, 0x2003,
    0x2004, 0x2005, 0x2006, 0x2007, 0x2008, 0x2009, 0x200a, 0x2028, 0x2029, 0x202f, 0x205f, 0x3000]

def isBlank (c : Char) : Bool := c.toNat ∈ blanks

/-! ### Reading -/

/-- The text without the blanks around it. -/
def trimmed (text : List Char) : List Char :=
  (((text.dropWhile isBlank).reverse).dropWhile isBlank).reverse

/-- The text without underscores, each of which has to stand between digits. -/
def ungrouped? (afterDigit : Bool) : List Char → Option (List Char)
  | [] => some []
  | '_' :: rest =>
    if afterDigit && (rest.head?.any fun c => (digit? c).isSome) then
      ungrouped? false rest
    else none
  | c :: rest => (ungrouped? (digit? c).isSome rest).map (c :: ·)

/-- The digits that a text starts with, by their values, and what follows them. -/
def leadingDigits : List Char → List Nat × List Char
  | [] => ([], [])
  | c :: rest =>
    match digit? c with
    | some d => ((leadingDigits rest).map (d :: ·) id)
    | none => ([], c :: rest)

/-- The sign that a text starts with, and what follows it. -/
def signOf : List Char → Bool × List Char
  | '-' :: rest => (true, rest)
  | '+' :: rest => (false, rest)
  | text => (false, text)

def digitsValue (digits : List Nat) : Nat := digits.foldl (fun n d => 10 * n + d) 0

/-- The exponent that a text is, if it is one; an empty text is the exponent zero. -/
def exponent? : List Char → Option Int
  | [] => some 0
  | mark :: text =>
    let (negative, unsigned) := signOf text
    let (digits, rest) := leadingDigits unsigned
    if mark.toLower = 'e' ∧ digits ≠ [] ∧ rest = [] then
      some (if negative then -digitsValue digits else digitsValue digits)
    else none

/-- A decimal without a sign. -/
def decimal? (negative : Bool) (text : List Char) : Option Binary64 :=
  let (whole, rest) := leadingDigits text
  let (fraction, rest) := match rest with
    | '.' :: rest => leadingDigits rest
    | rest => ([], rest)
  if whole = [] ∧ fraction = [] then none
  else (exponent? rest).map fun e =>
    .ofDecimal negative (digitsValue (whole ++ fraction)) (e - fraction.length)

/-- The number that a text reads as. -/
def Binary64.ofText? (text : String) : Option Binary64 := do
  let (negative, unsigned) := signOf (← ungrouped? false (trimmed text.toList))
  match String.ofList (unsigned.map Char.toLower) with
  | "inf" | "infinity" => some (infinity negative)
  | "nan" => some notNumber
  | _ => decimal? negative unsigned

end ProtoSchema.Number
