import ProtoSchema.Build.Option

/-!
Plain fields and map fields, made from parts, and their drafts.
-/

namespace ProtoSchema

open Build
open Number (Quantity)

namespace Build

def fieldNumberRefusal? (number : Quantity) : Option Refusal :=
  if number.le (.whole 0) then some .numberNotPositive else none

/-- Types that are declared by name need a name, and the others must not have one. -/
def typeNameRefusal? (field : String) (type : FieldType) (typeName : Option String) :
    Option Refusal :=
  if typeName.isSome && !type.isUserDefined then some .typeNameUnsupported
  else if typeName.isNone && type.isUserDefined then some (.typeNameMissing field type)
  else none

def keyRefusal? (key : FieldType) : Option Refusal :=
  if key.isMapKey then none else some (.keyType key.name)

end Build

namespace Field

def refusal? (f : Field) : Option Refusal :=
  fieldNumberRefusal? (.whole f.number) <|> typeNameRefusal? f.name f.type f.typeName <|>
    targetRefusal? .field f.options

def ofParts (ps : Parts) : Checked Field :=
  (Field.mk <$> ps.required "field_type" Read.fieldType
    <*> ps.required "name" Read.text
    <*> ps.required "number" Read.int
    <*> ps.optional "modifier" .singular Read.modifier
    <*> ps.optional "custom_type_name" none Read.textOrNull
    <*> ps.optional "comment" [] Read.texts
    <*> ps.optional "options" [] Read.options).verify refusal?

def ofNode? : Node → Option Field
  | .field f => some f
  | _ => none

end Field

namespace MapField

def refusal? (f : MapField) : Option Refusal :=
  fieldNumberRefusal? (.whole f.number) <|> typeNameRefusal? f.name f.valueType f.typeName <|>
    targetRefusal? .field f.options

def ofParts (ps : Parts) : Checked MapField :=
  (MapField.mk <$> ps.required "key_type" (fun v => (Read.fieldType v).verify keyRefusal?)
    <*> ps.required "value_type" Read.fieldType
    <*> ps.required "name" Read.text
    <*> ps.required "number" Read.int
    <*> ps.optional "custom_type_name" none Read.textOrNull
    <*> ps.optional "comment" [] Read.texts
    <*> ps.optional "options" [] Read.options).verify refusal?

end MapField

/-! ### Drafts -/

namespace Build

/-- The type is known to be declared by name. -/
def isUserDefined (type : Value) : Bool :=
  match type with
  | .choice (.fieldType t) => t.isUserDefined
  | _ => false

structure FieldDraft where
  type : Value
  name : Value
  number : Quantity
  modifier : FieldModifier := .singular
  typeName : Value := .null
  comment : List Value := []
  options : List Node := []

namespace FieldDraft

def start (type name : Value) (number : Quantity) : Except Refusal FieldDraft :=
  match fieldNumberRefusal? number with
  | some r => .error r
  | none => .ok { type, name, number }

/-- Makes the field repeated, or takes the label away. Optional fields are refused either way. -/
def setRepeated (d : FieldDraft) (repeated : Bool) : Except Refusal FieldDraft :=
  if d.modifier = .optional then .error .optionalRepeated
  else .ok { d with modifier := if repeated then .repeated else .singular }

/-- Makes the field optional, or takes the label away. Repeated fields are refused either way. -/
def setOptional (d : FieldDraft) (optional : Bool) : Except Refusal FieldDraft :=
  if d.modifier = .repeated then .error .repeatedOptional
  else .ok { d with modifier := if optional then .optional else .singular }

def setTypeName (d : FieldDraft) (typeName : Value) : Except Refusal FieldDraft :=
  if isUserDefined d.type then .ok { d with typeName } else .error .typeNameUnsupported

def build (d : FieldDraft) : Except BuildError Node :=
  Checked.toNode .field .field <| Field.ofParts
    [("field_type", d.type), ("name", d.name), ("number", .ofQuantity d.number),
      ("modifier", .choice (.modifier d.modifier)), ("custom_type_name", d.typeName),
      ("comment", .tuple d.comment), ("options", .nodeList d.options)]

end FieldDraft

structure MapFieldDraft where
  keyType : Value
  valueType : Value
  name : Value
  number : Quantity
  typeName : Value := .null
  comment : List Value := []
  options : List Node := []

namespace MapFieldDraft

/-- A key type, unless what is given is none. -/
def keyTypeRefusal? (key : Value) : Option Refusal :=
  match key.fieldType? with
  | some t => keyRefusal? t
  | none => some (.keyType key.display)

/-- The key type is looked at before the number. -/
def start (keyType valueType name : Value) (number : Quantity) : Except Refusal MapFieldDraft :=
  match keyTypeRefusal? keyType <|> fieldNumberRefusal? number with
  | some r => .error r
  | none => .ok { keyType, valueType, name, number }

def setTypeName (d : MapFieldDraft) (typeName : Value) : Except Refusal MapFieldDraft :=
  if isUserDefined d.valueType then .ok { d with typeName } else .error .typeNameUnsupported

def build (d : MapFieldDraft) : Except BuildError Node :=
  Checked.toNode .mapField .mapField <| MapField.ofParts
    [("key_type", d.keyType), ("value_type", d.valueType), ("name", d.name),
      ("number", .ofQuantity d.number), ("custom_type_name", d.typeName),
      ("comment", .tuple d.comment), ("options", .nodeList d.options)]

end MapFieldDraft

end Build

end ProtoSchema
