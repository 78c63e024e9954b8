import ProtoSchema.Schema.OptionDecl
import ProtoSchema.Usage.Conflict

/-!
Services and their methods.
-/

namespace ProtoSchema

structure Method where
  name : String
  request : String
  response : String
  requestStreaming : Bool := false
  responseStreaming : Bool := false
  comment : List String := []
  options : List OptionDecl := []
  deriving BEq, Repr

/-- Methods have no number. -/
def Method.identity (m : Method) : Usage.FieldIdentity := ⟨m.name, none⟩

structure Service where
  name : String
  comment : List String := []
  options : List OptionDecl := []
  methods : List Method := []
  deriving BEq, Repr

end ProtoSchema
