import ProtoSchema.Node.Value

/-!
Nodes taken apart into named parts.
-/

namespace ProtoSchema

/-- Values under the names of the parts they are. -/
abbrev Parts := List (String × Value)

namespace Value

def options (os : List OptionDecl) : Value := .nodes .option os

def nodeList (ns : List Node) : Value := .nodes id ns

def textOrNull : Option String → Value
  | none => .null
  | some s => .text s

def blocks {α : Type} (node : α → Node) (bs : List (List α)) : Value :=
  .tuple (bs.map (.nodes node))

end Value

def OptionEntry.parts (e : OptionEntry) : Parts :=
  [("name", .text e.name), ("value_type", .fieldType e.type), ("value", .scalar e.value)]

def OptionValue.toValue : OptionValue → Value
  | .literal _ v => .scalar v
  | .entries es => .tuple (es.map .entry)

namespace Node

/-- The parts of a node under their names, in the order of their declaration. -/
def parts : Node → Parts
  | bare => []
  | option o =>
    [("option_type", .target o.target), ("name", .text o.name), ("comment", .texts o.comment),
      ("value_type", .fieldType o.value.type), ("value", o.value.toValue)]
  | reservation r =>
    [("field_names", .texts r.names), ("field_numbers", .tuple (r.numbers.map .int)),
      ("field_ranges", .tuple (r.ranges.map .range)), ("comment", .texts r.comment)]
  | imported i => [("path", .text i.path), ("modifier", .choice (.importModifier i.modifier))]
  | field f =>
    [("field_type", .fieldType f.type), ("name", .text f.name), ("number", .int f.number),
      ("modifier", .choice (.modifier f.modifier)), ("custom_type_name", .textOrNull f.typeName),
      ("comment", .texts f.comment), ("options", .options f.options)]
  | mapField f =>
    [("key_type", .fieldType f.keyType), ("value_type", .fieldType f.valueType),
      ("name", .text f.name), ("number", .int f.number),
      ("custom_type_name", .textOrNull f.typeName), ("comment", .texts f.comment),
      ("options", .options f.options)]
  | oneof o =>
    [("name", .text o.name), ("comment", .texts o.comment), ("options", .options o.options),
      ("members", .nodes .field o.members)]
  | enumValue v =>
    [("name", .text v.name), ("number", .int v.number), ("comment", .texts v.comment),
      ("options", .options v.options)]
  | enum e =>
    [("name", .text e.name), ("comment", .texts e.comment), ("options", .options e.options),
      ("reservations", .nodes .reservation e.reservations),
      ("enum_values", .nodes .enumValue e.values)]
  | message m =>
    [("name", .text m.name), ("comment", .texts m.comment), ("options", .options m.options),
      ("reservations", .nodes .reservation m.reservations),
      ("blocks", .blocks Member.node m.blocks)]
  | method m =>
    [("name", .text m.name), ("request", .text m.request), ("response", .text m.response),
      ("request_streaming", .bool m.requestStreaming),
      ("response_streaming", .bool m.responseStreaming), ("comment", .texts m.comment),
      ("options", .options m.options)]
  | service s =>
    [("name", .text s.name), ("comment", .texts s.comment), ("options", .options s.options),
      ("rpcs", .nodes .method s.methods)]
  | extension e =>
    [("option_type", .target e.target), ("comment", .texts e.comment),
      ("extension_fields", .nodes .field e.fields)]
  | file f =>
    [("comment", .texts f.comment), ("package", .textOrNull f.package),
      ("explicit_imports", .nodes .imported f.explicitImports), ("options", .options f.options),
      ("blocks", .blocks Declaration.node f.blocks)]

end Node

end ProtoSchema
