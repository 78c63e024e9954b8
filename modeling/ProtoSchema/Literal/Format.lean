import ProtoSchema.Literal.Quoted
import ProtoSchema.Literal.Scalar
import ProtoSchema.Number.Reading
import ProtoSchema.Report.Quoted

/-!
Scalar values as literals of a type.

A literal of the two floating point types may fail: no floating point number comes near a large
whole number, and not every text reads as a number. A value of any other type has a literal.
-/

namespace ProtoSchema

open Number (Binary64)

/-- Why a value has no literal. -/
inductive FormatError where
  | tooLarge
  /-- What cannot be read as a number, as reports quote it. -/
  | notANumber (given : String)
  deriving DecidableEq, Repr

def FormatError.message : FormatError → String
  | .tooLarge => "int too large to convert to float"
  | .notANumber given => "could not convert string to float: " ++ given

namespace Scalar

/-- The value as a text. Only bytes have quotes of their own. -/
def plainText : Scalar → String
  | bool b => (Number.Quantity.truth b).text
  | int n => toString n
  | float x => x.text
  | text s => s
  | bytes b => Report.quoteBytes b

/-- What counts as true: any number but zero, and whatever is not empty. -/
def truth : Scalar → Bool
  | bool b => b
  | int n => n ≠ 0
  | float x => !x.isZero
  | text s => s ≠ ""
  | bytes b => !b.isEmpty

def toBinary64 : Scalar → Except FormatError Binary64
  | bool b => .ok ⟨if b then 0x3ff0000000000000 else 0⟩
  | int n => match Binary64.ofInt? n with
    | some x => .ok x
    | none => .error .tooLarge
  | float x => .ok x
  | text s => match Binary64.ofText? s with
    | some x => .ok x
    | none => .error (.notANumber (Report.quoteText s))
  | bytes b => .error (.notANumber (Report.quoteBytes b))

end Scalar

namespace FieldType

/-- The literal of a value that is not of bytes. -/
def formatPlain (t : FieldType) (v : Scalar) : Except FormatError String :=
  match t with
  | .string | .bytes => .ok (Literal.quoteText v.plainText)
  | .bool => .ok (if v.truth then "true" else "false")
  | .float | .double => v.toBinary64.map Binary64.text
  | _ => .ok v.plainText

/-- The literal of a value. Bytes are quoted whatever the type is. -/
def format (t : FieldType) (v : Scalar) : Except FormatError String :=
  match v with
  | .bytes b => .ok (Literal.quoteBytes b)
  | v => t.formatPlain v

end FieldType

end ProtoSchema
