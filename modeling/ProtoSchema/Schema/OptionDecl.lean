import ProtoSchema.Literal.Scalar
import ProtoSchema.Schema.OptionTarget

/-!
Options and their values: one literal, or the entries of a message.
-/

namespace ProtoSchema

/-- A named literal inside a message value. -/
structure OptionEntry where
  name : String
  type : FieldType
  value : Scalar
  deriving BEq, Repr

inductive OptionValue where
  | literal (type : FieldType) (value : Scalar)
  | entries (entries : List OptionEntry)
  deriving BEq, Repr

def OptionValue.type : OptionValue → FieldType
  | literal type _ => type
  | entries _ => .message

structure OptionDecl where
  target : OptionTarget
  name : String
  comment : List String := []
  value : OptionValue
  deriving BEq, Repr

namespace OptionDecl

/-- The name as it is written: custom options stand in parentheses, which they may bring along. -/
def writtenName (o : OptionDecl) : String :=
  if o.name ∈ o.target.wellKnown ∨ o.name.toList.head? = some '(' then o.name
  else "(" ++ o.name ++ ")"

end OptionDecl

end ProtoSchema
