import ProtoSchema.Schema.OptionDecl
import ProtoSchema.Usage.Conflict

/-!
Fields of a message: plain fields, maps, and oneofs.

A oneof has no scope of its own; its name and its members belong to the message around it.
-/

namespace ProtoSchema

open Usage (FieldIdentity)

/-- A type as it is written; one without a name of its own is written as what it is. -/
def typeLabel (type : FieldType) (typeName : Option String) : String :=
  match typeName with
  | some "" | none => type.name
  | some name => name

structure Field where
  type : FieldType
  name : String
  number : Int
  modifier : FieldModifier := .singular
  /-- The name of a message or enum type. -/
  typeName : Option String := none
  comment : List String := []
  options : List OptionDecl := []
  deriving BEq, Repr

namespace Field

def label (f : Field) : String := typeLabel f.type f.typeName

def identity (f : Field) : FieldIdentity := ⟨f.name, some f.number⟩

end Field

structure MapField where
  keyType : FieldType
  valueType : FieldType
  name : String
  number : Int
  /-- The name of a message or enum type of the values. -/
  typeName : Option String := none
  comment : List String := []
  options : List OptionDecl := []
  deriving BEq, Repr

namespace MapField

def valueLabel (f : MapField) : String := typeLabel f.valueType f.typeName

def identity (f : MapField) : FieldIdentity := ⟨f.name, some f.number⟩

end MapField

structure Oneof where
  name : String
  comment : List String := []
  options : List OptionDecl := []
  members : List Field := []
  deriving BEq, Repr

def Oneof.memberIdentities (o : Oneof) : List FieldIdentity := o.members.map Field.identity

end ProtoSchema
