/-!
The types a field may have.

A message or enum type stands for a type declared by name. The other types are scalar, and ten of
them are integer types with a range.
-/

namespace ProtoSchema

inductive FieldType where
  | double | float
  | int32 | int64 | uint32 | uint64 | sint32 | sint64
  | fixed32 | fixed64 | sfixed32 | sfixed64
  | bool | string | bytes
  | message | enum
  deriving DecidableEq, Repr

namespace FieldType

def name : FieldType → String
  | double => "double" | float => "float"
  | int32 => "int32" | int64 => "int64" | uint32 => "uint32" | uint64 => "uint64"
  | sint32 => "sint32" | sint64 => "sint64"
  | fixed32 => "fixed32" | fixed64 => "fixed64" | sfixed32 => "sfixed32" | sfixed64 => "sfixed64"
  | bool => "bool" | string => "string" | bytes => "bytes"
  | message => "message" | enum => "enum"

def all : List FieldType :=
  [double, float, int32, int64, uint32, uint64, sint32, sint64, fixed32, fixed64,
    sfixed32, sfixed64, bool, string, bytes, message, enum]

def ofName? (name : String) : Option FieldType := all.find? fun t => t.name = name

/-- The type is declared by name. -/
def isUserDefined : FieldType → Bool
  | message | enum => true
  | _ => false

def isFloating : FieldType → Bool
  | double | float => true
  | _ => false

/-- The least and the greatest value of an integer type. -/
def range? : FieldType → Option (Int × Int)
  | int32 | sint32 | sfixed32 => some (-2147483648, 2147483647)
  | uint32 | fixed32 => some (0, 4294967295)
  | int64 | sint64 | sfixed64 => some (-9223372036854775808, 9223372036854775807)
  | uint64 | fixed64 => some (0, 18446744073709551615)
  | _ => none

/-- The type may be the key of a map: an integer type, `bool` or `string`. -/
def isMapKey (t : FieldType) : Bool := t.range?.isSome || t = bool || t = string

end FieldType

/-- The label in front of a field's type. -/
inductive FieldModifier where
  | singular | repeated | optional
  deriving DecidableEq, Repr

namespace FieldModifier

/-- The label as it is written; a singular field has none. -/
def name : FieldModifier → String
  | singular => "" | repeated => "repeated" | optional => "optional"

def all : List FieldModifier := [singular, repeated, optional]

def ofName? (name : String) : Option FieldModifier := all.find? fun m => m.name = name

end FieldModifier

/-- The modifier in front of an imported path. -/
inductive ImportModifier where
  | plain | weak | reexport
  deriving DecidableEq, Repr

namespace ImportModifier

def name : ImportModifier → String
  | plain => "" | weak => "weak" | reexport => "public"

def all : List ImportModifier := [plain, weak, reexport]

def ofName? (name : String) : Option ImportModifier := all.find? fun m => m.name = name

end ImportModifier

end ProtoSchema
