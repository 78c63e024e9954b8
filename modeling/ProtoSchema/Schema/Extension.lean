import ProtoSchema.Schema.Field

/-!
Extensions of the descriptor messages, which declare custom options.
-/

namespace ProtoSchema

structure Extension where
  target : OptionTarget
  comment : List String := []
  fields : List Field := []
  deriving BEq, Repr

/-- An extension goes by the name of the message it extends. -/
def Extension.typeName (e : Extension) : String := e.target.descriptorName

end ProtoSchema
