/-!
Quoted literals of text and of bytes.

Inside the quotes a backslash, a quote and a newline are escaped. Text keeps every other character;
bytes outside printable ASCII are written as three octal digits.
-/

namespace ProtoSchema.Literal

/-- The escape for the characters that never stand for themselves. -/
def escape? : Char → Option (List Char)
  | '\\' => some ['\\', '\\']
  | '"' => some ['\\', '"']
  | '\n' => some ['\\', 'n']
  | _ => none

def escapeChar (c : Char) : List Char := (escape? c).getD [c]

/-- A digit below eight. -/
def octalDigit (n : Nat) : Char := Char.ofNat ('0'.toNat + n % 8)

def octal (b : UInt8) : List Char :=
  ['\\', octalDigit (b.toNat / 64), octalDigit (b.toNat / 8), octalDigit b.toNat]

def isPrintable (b : UInt8) : Bool := 0x20 ≤ b && b < 0x7f

def escapeByte (b : UInt8) : List Char :=
  match escape? (Char.ofNat b.toNat) with
  | some e => e
  | none => if isPrintable b then [Char.ofNat b.toNat] else octal b

def quote (body : List Char) : String := String.ofList ('"' :: body ++ ['"'])

def quoteText (text : String) : String := quote (text.toList.flatMap escapeChar)

def quoteBytes (bytes : List UInt8) : String := quote (bytes.flatMap escapeByte)

end ProtoSchema.Literal
