import ProtoSchema.Schema.Enum
import ProtoSchema.Schema.Field

/-!
Messages and what may be nested in them.

The body of a message is made of blocks; the members of one block are written together.
-/

namespace ProtoSchema

mutual

structure Message where
  name : String
  comment : List String := []
  options : List OptionDecl := []
  reservations : List Reservation := []
  blocks : List (List Member) := []

inductive Member where
  | field (f : Field)
  | map (f : MapField)
  | oneof (o : Oneof)
  | message (m : Message)
  | enum (e : EnumDecl)

end

end ProtoSchema
