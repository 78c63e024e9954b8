import ProtoSchema.Schema.OptionDecl
import ProtoSchema.Schema.Reservation
import ProtoSchema.Usage.Conflict

/-!
Enums and their values.
-/

namespace ProtoSchema

structure EnumValue where
  name : String
  number : Int
  comment : List String := []
  options : List OptionDecl := []
  deriving BEq, Repr

def EnumValue.identity (v : EnumValue) : Usage.FieldIdentity := ⟨v.name, some v.number⟩

structure EnumDecl where
  name : String
  comment : List String := []
  options : List OptionDecl := []
  reservations : List Reservation := []
  values : List EnumValue := []
  deriving BEq, Repr

end ProtoSchema
