import ProtoSchema.Print.Option
import ProtoSchema.Schema.Enum
import ProtoSchema.Schema.Field
import ProtoSchema.Schema.Import

/-!
The text of declarations that fit on a line: fields, enum values, reservations, and imports.
-/

namespace ProtoSchema

open Print

namespace Print

/-- A word and a space, or nothing if there is no word. -/
def leading (word : String) : String := if word = "" then "" else word ++ " "

/-- A commented line that ends in a number, with options in brackets. -/
def lineScript (comment : List String) (number : Int) (text : String) (options : List OptionDecl) :
    Script :=
  .comment comment :: .numbered [number] text ::
    (OptionDecl.bracketScript options ++ [.emit ";\n"])

end Print

def Field.script (f : Field) : Script :=
  lineScript f.comment f.number
    (leading f.modifier.name ++ f.label ++ " " ++ f.name ++ " = " ++ toString f.number) f.options

def MapField.script (f : MapField) : Script :=
  lineScript f.comment f.number
    ("map<" ++ f.keyType.name ++ ", " ++ f.valueLabel ++ "> " ++ f.name ++ " = " ++
      toString f.number)
    f.options

def EnumValue.script (v : EnumValue) : Script :=
  lineScript v.comment v.number (v.name ++ " = " ++ toString v.number) v.options

/-- What is reserved, as it is written: names, then numbers, then ranges. -/
def Reservation.items (r : Reservation) : List String :=
  r.names.map (fun name => "\"" ++ name ++ "\"") ++ r.numbers.map (toString ·) ++
    r.ranges.map FieldRange.text

/-- The whole numbers that are written for a reservation: its own, and the bounds of its ranges. -/
def Reservation.writtenNumbers (r : Reservation) : List Int :=
  r.numbers ++ r.ranges.flatMap FieldRange.wholeBounds

def Reservation.script (r : Reservation) : Script :=
  [.comment r.comment,
    .numbered r.writtenNumbers ("reserved " ++ ", ".intercalate r.items ++ ";\n")]

def Import.script (i : Import) : Script :=
  [.emit ("import " ++ leading i.modifier.name ++ "\"" ++ i.path ++ "\";\n")]

end ProtoSchema
