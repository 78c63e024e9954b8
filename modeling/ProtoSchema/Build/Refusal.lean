import ProtoSchema.Literal.Scalar
import ProtoSchema.Schema.Enumeration
import ProtoSchema.Schema.Reservation

/-!
Why a declaration, or a step in building one, is refused.
-/

namespace ProtoSchema.Build

inductive Refusal where
  /-- What is given, as it is shown, is no member. -/
  | notAMember (given : String) (enumeration : Enumeration)
  | value (m : Mismatch)
  /-- A value of this kind has to be a text, since nothing is known about its type. -/
  | unknownType (kind : String) (type : String)
  | range (e : RangeError)
  | unlisted (e : ListingError)
  -- options
  | inlineComment
  | valueMissing (option : String)
  /-- An option is not meant for this construct. -/
  | wrongTarget (construct : String)
  -- reservations
  | truthValueReserved (b : Bool)
  | namesAndNumbers
  | nothingReserved
  | reservedNotPositive
  | rangesWithNames
  -- imports and fields
  | pathExtension
  | numberNotPositive
  | typeNameUnsupported
  | typeNameMissing (name : String) (type : FieldType)
  | keyType (type : String)
  | optionalRepeated
  | repeatedOptional
  | mapInOneof (name : String)
  | oneofInOneof (name : String)
  | repeatedInOneof (name : String)
  | optionalInOneof (name : String)
  | numberNegative
  -- bodies
  | notAField (kind : String)
  | notAPlainField
  | requestMissing
  | responseMissing
  deriving DecidableEq, Repr

def Refusal.message : Refusal → String
  | notAMember given enumeration => given ++ " is not a valid " ++ enumeration.label
  | value m => m.message
  | unknownType kind type => "'" ++ kind ++ "' invalid type for " ++ type ++ " values"
  | range e => e.message
  | unlisted e => e.message
  | inlineComment => "comments aren't available for field options"
  | valueMissing option => "option '" ++ option ++ "' has no value"
  | wrongTarget construct => "option must be " ++ construct ++ " type"
  | truthValueReserved b => (if b then "True" else "False") ++ " is not a field number"
  | namesAndNumbers => "cannot reserve field names and numbers together"
  | nothingReserved => "a reservation needs at least one name or number"
  | reservedNotPositive => "negative field numbers are invalid"
  | rangesWithNames => "ranges are only allowed when reserving field numbers"
  | pathExtension => "path must be a file ending with .proto"
  | numberNotPositive => "field number must be positive"
  | typeNameUnsupported => "custom type names only supported for MESSAGE and ENUM types"
  | typeNameMissing name type =>
    "'" ++ name ++ "' type is " ++ type.name ++ " and needs a custom type name associated with it"
  | keyType type => "key type must be of an acceptable type, not " ++ type
  | optionalRepeated => "optional fields cannot be repeated"
  | repeatedOptional => "repeated fields cannot be explicitly optional"
  | mapInOneof name => "map field '" ++ name ++ "' not allowed in oneof"
  | oneofInOneof name => "immediate inner oneof field '" ++ name ++ "' disallowed"
  | repeatedInOneof name => "repeated field '" ++ name ++ "' not allowed in oneof"
  | optionalInOneof name => "optional field '" ++ name ++ "' not allowed in oneof"
  | numberNegative => "field number may not be negative"
  | notAField kind => "'" ++ kind ++ "' is not a message field"
  | notAPlainField => "complex fields not allowed (eg: oneofs or maps)"
  | requestMissing => "request message must be set"
  | responseMissing => "response message must be set"

end ProtoSchema.Build
