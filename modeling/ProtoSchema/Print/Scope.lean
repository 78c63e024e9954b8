import ProtoSchema.Print.Field
import ProtoSchema.Schema.Extension
import ProtoSchema.Schema.Service
import ProtoSchema.Usage.FieldScope

/-!
The text of declarations with a body: oneofs, enums, services, and extensions.

Each element of a body is registered with its scope right before it is written, and a rejection
stops the text there. Reservations are written first, so they hold for every element.
-/

namespace ProtoSchema

open Print Usage

namespace Print

/-- Registers and writes elements one after another. -/
def registered {σ α : Type} (register : σ → α → σ × Option Rejection) (script : α → Script) :
    σ → List α → Script × σ
  | s, [] => ([], s)
  | s, a :: as =>
    let r := register s a
    let rest := registered register script r.1 as
    (guard r.2 ++ script a ++ rest.1, rest.2)

def optionSection (options : List OptionDecl) : List Script :=
  sectionFor options (options.flatMap OptionDecl.script)

/-- Reservations, and the scope they leave. -/
def reservedScript (reservations : List Reservation) : Script × FieldScope :=
  registered FieldScope.registerReservation Reservation.script {} reservations

/-- Elements that are registered as fields. -/
def fieldScript {α : Type} (identity : α → FieldIdentity) (script : α → Script) (s : FieldScope)
    (as : List α) : Script :=
  (registered (fun (s : FieldScope) a => rejecting (s.register (identity a))) script s as).1

end Print

def Oneof.script (o : Oneof) : Script :=
  .comment o.comment :: scope ("oneof " ++ o.name)
    (optionSection o.options ++ sectionFor o.members (o.members.flatMap Field.script))

def EnumDecl.script (e : EnumDecl) : Script :=
  let reserved := reservedScript e.reservations
  .comment e.comment :: scope ("enum " ++ e.name)
    (optionSection e.options ++ sectionFor e.reservations reserved.1 ++
      sectionFor e.values (fieldScript EnumValue.identity EnumValue.script reserved.2 e.values))

namespace Method

/-- A message name in the signature. -/
def part (streaming : Bool) (message : String) : String :=
  if streaming then "stream " ++ message else message

def signature (m : Method) : String :=
  "rpc " ++ m.name ++ " (" ++ part m.requestStreaming m.request ++ ") returns (" ++
    part m.responseStreaming m.response ++ ")"

/-- The options of a method are a body behind its signature. -/
def script (m : Method) : Script :=
  .comment m.comment :: .emit m.signature ::
    if m.options.isEmpty then [.emit ";\n"]
    else
      .emit " \x7b\n" :: .indent none ::
        (m.options.flatMap OptionDecl.script ++ [.unindent none, .emit "\x7d\n"])

end Method

def Service.script (s : Service) : Script :=
  .comment s.comment :: scope ("service " ++ s.name)
    (optionSection s.options ++
      sectionFor s.methods (fieldScript Method.identity Method.script {} s.methods))

def Extension.script (e : Extension) : Script :=
  .comment e.comment :: scope ("extend " ++ e.typeName)
    (sectionFor e.fields (fieldScript Field.identity Field.script {} e.fields))

end ProtoSchema
