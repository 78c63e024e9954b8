import ProtoSchema.Print.File

/-!
Nodes: everything that can be built and printed on its own.
-/

namespace ProtoSchema

/-- What a node is, or an entry of a message value. -/
inductive Kind where
  | bare
  | option | entry | reservation | imported
  | field | mapField | oneof
  | enumValue | enum | message
  | method | service | extension | file
  deriving DecidableEq, Repr

/-- What reports call a node of the kind. -/
def Kind.label : Kind → String
  | bare => "ProtoSpec"
  | option => "OptionSpec"
  | entry => "FieldValue"
  | reservation => "ReservationSpec"
  | imported => "ImportSpec"
  | field => "MessageFieldSpec"
  | mapField => "MapFieldSpec"
  | oneof => "OneofFieldSpec"
  | enumValue => "EnumFieldSpec"
  | enum => "EnumSpec"
  | message => "MessageSpec"
  | method => "RpcFieldSpec"
  | service => "ServiceSpec"
  | extension => "ExtensionSpec"
  | file => "ProtoFile"

inductive Node where
  /-- A node with nothing in it, and without a text. -/
  | bare
  | option (o : OptionDecl)
  | reservation (r : Reservation)
  | imported (i : Import)
  | field (f : Field)
  | mapField (f : MapField)
  | oneof (o : Oneof)
  | enumValue (v : EnumValue)
  | enum (e : EnumDecl)
  | message (m : Message)
  | method (m : Method)
  | service (s : Service)
  | extension (e : Extension)
  | file (f : File)

namespace Node

def kind : Node → Kind
  | bare => .bare
  | option _ => .option
  | reservation _ => .reservation
  | imported _ => .imported
  | field _ => .field
  | mapField _ => .mapField
  | oneof _ => .oneof
  | enumValue _ => .enumValue
  | enum _ => .enum
  | message _ => .message
  | method _ => .method
  | service _ => .service
  | extension _ => .extension
  | file _ => .file

def script : Node → Print.Script
  | bare => [.fail .noText]
  | option o => o.script
  | reservation r => r.script
  | imported i => i.script
  | field f => f.script
  | mapField f => f.script
  | oneof o => o.script
  | enumValue v => v.script
  | enum e => e.script
  | message m => m.script
  | method m => m.script
  | service s => s.script
  | extension e => e.script
  | file f => f.script

end Node

/-! ### Nodes as members and declarations -/

namespace Member

def node : Member → Node
  | field f => .field f
  | map f => .mapField f
  | oneof o => .oneof o
  | message m => .message m
  | enum e => .enum e

def ofNode? : Node → Option Member
  | .field f => some (.field f)
  | .mapField f => some (.map f)
  | .oneof o => some (.oneof o)
  | .message m => some (.message m)
  | .enum e => some (.enum e)
  | _ => none

/-- The kinds that may be members, in the order in which they are tried. -/
def kinds : List Kind := [.field, .mapField, .oneof, .message, .enum]

end Member

namespace Declaration

def node : Declaration → Node
  | message m => .message m
  | enum e => .enum e
  | service s => .service s
  | extension e => .extension e

def ofNode? : Node → Option Declaration
  | .message m => some (.message m)
  | .enum e => some (.enum e)
  | .service s => some (.service s)
  | .extension e => some (.extension e)
  | _ => none

/-- The kinds that may be declarations, in the order in which they are tried. -/
def kinds : List Kind := [.message, .enum, .service, .extension]

end Declaration

end ProtoSchema
