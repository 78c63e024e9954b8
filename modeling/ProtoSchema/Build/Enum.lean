import ProtoSchema.Build.Option
import ProtoSchema.Build.Reservation

/-!
Enums and their values, made from parts, and their drafts.
-/

namespace ProtoSchema

open Build
open Number (Quantity)

namespace EnumValue

def numberRefusal? (number : Quantity) : Option Refusal :=
  if number.isNegative then some .numberNegative else none

def refusal? (v : EnumValue) : Option Refusal :=
  numberRefusal? (.whole v.number) <|> targetRefusal? .enumValue v.options

def ofParts (ps : Parts) : Checked EnumValue :=
  (EnumValue.mk <$> ps.required "name" Read.text
    <*> ps.required "number" Read.int
    <*> ps.optional "comment" [] Read.texts
    <*> ps.optional "options" [] Read.options).verify refusal?

end EnumValue

namespace EnumDecl

def refusal? (e : EnumDecl) : Option Refusal := targetRefusal? .enum e.options

def ofParts (ps : Parts) : Checked EnumDecl :=
  (EnumDecl.mk <$> ps.required "name" Read.text
    <*> ps.optional "comment" [] Read.texts
    <*> ps.optional "options" [] Read.options
    <*> ps.optional "reservations" [] Read.reservations
    <*> ps.optional "enum_values" []
      (Read.elements <| Read.node .enumValue fun
        | .enumValue v => some v
        | _ => none)).verify refusal?

end EnumDecl

/-! ### Drafts -/

namespace Build

structure EnumValueDraft where
  name : Value
  number : Quantity
  comment : List Value := []
  options : List Node := []

namespace EnumValueDraft

def start (name : Value) (number : Quantity) : Except Refusal EnumValueDraft :=
  match EnumValue.numberRefusal? number with
  | some r => .error r
  | none => .ok { name, number }

def build (d : EnumValueDraft) : Except BuildError Node :=
  Checked.toNode .enumValue .enumValue <| EnumValue.ofParts
    [("name", d.name), ("number", .ofQuantity d.number), ("comment", .tuple d.comment),
      ("options", .nodeList d.options)]

end EnumValueDraft

structure EnumDraft where
  name : Value
  comment : List Value := []
  options : List Node := []
  reservations : List Node := []
  values : List Node := []

def EnumDraft.build (d : EnumDraft) : Except BuildError Node :=
  Checked.toNode .enum .enum <| EnumDecl.ofParts
    [("name", d.name), ("comment", .tuple d.comment), ("options", .nodeList d.options),
      ("reservations", .nodeList d.reservations), ("enum_values", .nodeList d.values)]

end Build

end ProtoSchema
