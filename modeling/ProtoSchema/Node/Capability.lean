import ProtoSchema.Node.Basic

/-!
What a node can do besides being printed.
-/

namespace ProtoSchema

open Usage (FieldIdentity)

inductive Capability where
  | emittable | buildable
  | namedType | singleField | fieldGroup | fieldReservations
  | importable
  deriving DecidableEq, Repr

def Capability.label : Capability → String
  | emittable => "Emittable"
  | buildable => "Buildable"
  | namedType => "NamedType"
  | singleField => "SingleField"
  | fieldGroup => "FieldGroup"
  | fieldReservations => "FieldReservations"
  | importable => "Importable"

namespace Node

/-- The type name that a node declares. -/
def typeName? : Node → Option String
  | enum e => some e.name
  | message m => some m.name
  | service s => some s.name
  | extension e => some e.typeName
  | _ => none

/-- What a single field is known by. -/
def identity? : Node → Option FieldIdentity
  | field f => some f.identity
  | mapField f => some f.identity
  | enumValue v => some v.identity
  | method m => some m.identity
  | _ => none

/-- The name and the members of a group of fields. -/
def group? : Node → Option (String × List FieldIdentity)
  | oneof o => some (o.name, o.memberIdentities)
  | _ => none

def reservation? : Node → Option Reservation
  | reservation r => some r
  | _ => none

def imports? : Node → Option (List Import)
  | extension e => some (Declaration.extension e).imports
  | file f => some f.imports
  | _ => none

/-- What options a node is meant for, or extends. -/
def target? : Node → Option OptionTarget
  | option o => some o.target
  | extension e => some e.target
  | _ => none

/-- Every node can be printed and stands for itself where a draft is expected. -/
def capabilities (n : Node) : List Capability :=
  [.emittable, .buildable] ++
    (if n.typeName?.isSome then [.namedType] else []) ++
    (if n.identity?.isSome then [.singleField] else []) ++
    (if n.group?.isSome then [.fieldGroup] else []) ++
    (if n.reservation?.isSome then [.fieldReservations] else []) ++
    (if n.imports?.isSome then [.importable] else [])

end Node

end ProtoSchema
