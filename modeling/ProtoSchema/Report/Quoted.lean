import ProtoSchema.Report.Unprintable

/-!
Texts and bytes as reports quote them.

Single quotes are used, unless the text has one and no double quote. The quote, backslashes and
whatever cannot be printed are escaped. Bytes are marked by a letter in front.
-/

namespace ProtoSchema.Report

def isPrintable (c : Char) : Bool :=
  if c.toNat < 0x80 then 0x20 ≤ c.toNat && c.toNat < 0x7f
  else !unprintable.any fun r => r.1 ≤ c.toNat && c.toNat ≤ r.2

/-- The number in hexadecimal digits, behind a backslash and a letter. -/
def hexEscape (letter : Char) (width n : Nat) : List Char :=
  let digits := Nat.toDigits 16 n
  '\\' :: letter :: (List.replicate (width - digits.length) '0' ++ digits)

/-- The shortest escape that has room for a code point. -/
def codeEscape (n : Nat) : List Char :=
  if n < 0x100 then hexEscape 'x' 2 n
  else if n < 0x10000 then hexEscape 'u' 4 n
  else hexEscape 'U' 8 n

/-- A character between quotes. -/
def escapeChar (quote : Char) (printable : Bool) (c : Char) : List Char :=
  if c = quote ∨ c = '\\' then ['\\', c]
  else match c with
    | '\t' => ['\\', 't']
    | '\n' => ['\\', 'n']
    | '\r' => ['\\', 'r']
    | c => if printable then [c] else codeEscape c.toNat

/-- The quote for a text. -/
def quoteFor (text : List Char) : Char :=
  if text.contains '\x27' && !text.contains '"' then '"' else '\x27'

def quoteChars (printable : Char → Bool) (text : List Char) : List Char :=
  let quote := quoteFor text
  quote :: text.flatMap (fun c => escapeChar quote (printable c) c) ++ [quote]

def quoteText (text : String) : String := String.ofList (quoteChars isPrintable text.toList)

def quoteBytes (bytes : List UInt8) : String :=
  let chars := bytes.map fun b => Char.ofNat b.toNat
  String.ofList ('b' :: quoteChars (fun c => c.toNat < 0x80 && isPrintable c) chars)

end ProtoSchema.Report
