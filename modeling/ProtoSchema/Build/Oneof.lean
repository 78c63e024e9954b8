import ProtoSchema.Build.Field

/-!
Oneofs, made from parts, and their drafts.
-/

namespace ProtoSchema

open Build

namespace Oneof

/-- Maps, oneofs, and fields with a label do not belong into a oneof. -/
def memberRefusal? : Node → Option Refusal
  | .mapField f => some (.mapInOneof f.name)
  | .oneof o => some (.oneofInOneof o.name)
  | .field f =>
    match f.modifier with
    | .repeated => some (.repeatedInOneof f.name)
    | .optional => some (.optionalInOneof f.name)
    | .singular => none
  | _ => none

def membersRefusal? (members : List Value) : Option Refusal :=
  members.findSome? fun v => v.node?.bind memberRefusal?

def refusal? (o : Oneof) : Option Refusal := targetRefusal? .oneof o.options

def ofParts (ps : Parts) : Checked Oneof :=
  (Oneof.mk <$> ps.required "name" Read.text
    <*> ps.optional "comment" [] Read.texts
    <*> ps.optional "options" [] Read.options
    <*> ps.optional "members" []
      (Read.guarded membersRefusal?
        (Read.elements (Read.node .field Field.ofNode?)))).verify refusal?

end Oneof

/-! ### Drafts -/

namespace Build

structure OneofDraft where
  name : Value
  comment : List Value := []
  options : List Node := []
  members : List Node := []

def OneofDraft.build (d : OneofDraft) : Except BuildError Node :=
  Checked.toNode .oneof .oneof <| Oneof.ofParts
    [("name", d.name), ("comment", .tuple d.comment), ("options", .nodeList d.options),
      ("members", .nodeList d.members)]

end Build

end ProtoSchema
