import ProtoSchema.Build.Option
import ProtoSchema.Build.Reservation

/-!
Messages, made from parts, and their drafts.
-/

namespace ProtoSchema

open Build

namespace Message

def refusal? (m : Message) : Option Refusal := targetRefusal? .message m.options

def ofParts (ps : Parts) : Checked Message :=
  (Message.mk <$> ps.required "name" Read.text
    <*> ps.optional "comment" [] Read.texts
    <*> ps.optional "options" [] Read.options
    <*> ps.optional "reservations" [] Read.reservations
    <*> ps.optional "blocks" []
      (Read.elements (Read.elements (Read.nodeOf Member.kinds Member.ofNode?)))).verify refusal?

end Message

/-! ### Drafts -/

namespace Build

/-- A further block, unless there is nothing in it. -/
def addBlock (blocks : List (List Node)) (block : List Node) : List (List Node) :=
  if block.isEmpty then blocks else blocks ++ [block]

structure MessageDraft where
  name : Value
  comment : List Value := []
  options : List Node := []
  reservations : List Node := []
  blocks : List (List Node) := []

namespace MessageDraft

/-- Plain fields, maps and oneofs may be added as fields. -/
def fieldRefusal? : Node → Option Refusal
  | .field _ | .mapField _ | .oneof _ => none
  | n => some (.notAField n.kind.label)

def build (d : MessageDraft) : Except BuildError Node :=
  Checked.toNode .message .message <| Message.ofParts
    [("name", d.name), ("comment", .tuple d.comment), ("options", .nodeList d.options),
      ("reservations", .nodeList d.reservations), ("blocks", .blocks id d.blocks)]

end MessageDraft

end Build

end ProtoSchema
