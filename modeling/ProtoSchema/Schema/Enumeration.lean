import ProtoSchema.Schema.FieldType
import ProtoSchema.Schema.OptionTarget

/-!
The enumerations of the schema language, whose members are given by name.
-/

namespace ProtoSchema

inductive Enumeration where
  | fieldType | target | modifier | importModifier
  deriving DecidableEq, Repr

def Enumeration.label : Enumeration → String
  | fieldType => "FieldType"
  | target => "OptionType"
  | modifier => "FieldModifier"
  | importModifier => "ImportModifier"

/-- A member of one of the enumerations. -/
inductive Choice where
  | fieldType (t : FieldType)
  | target (t : OptionTarget)
  | modifier (m : FieldModifier)
  | importModifier (m : ImportModifier)
  deriving DecidableEq, Repr

namespace Choice

def enumeration : Choice → Enumeration
  | fieldType _ => .fieldType
  | target _ => .target
  | modifier _ => .modifier
  | importModifier _ => .importModifier

/-- The name that the member is given by. -/
def name : Choice → String
  | fieldType t => t.name
  | target t => t.name
  | modifier m => m.name
  | importModifier m => m.name

/-- The member in words; one without a name stands for none of the others. -/
def words : Choice → String
  | target t => t.label
  | c => if c.name = "" then "none" else c.name

/-- The constant that stands for the member. -/
def constant (c : Choice) : String :=
  String.ofList (c.words.toList.map fun d => if d = ' ' then '_' else d.toUpper)

def ofName? (e : Enumeration) (name : String) : Option Choice :=
  match e with
  | .fieldType => (FieldType.ofName? name).map fieldType
  | .target => (OptionTarget.ofName? name).map target
  | .modifier => (FieldModifier.ofName? name).map modifier
  | .importModifier => (ImportModifier.ofName? name).map importModifier

end Choice

end ProtoSchema
