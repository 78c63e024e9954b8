import ProtoSchema.Build.Field

/-!
Extensions, made from parts, and their drafts.
-/

namespace ProtoSchema

open Build

namespace Extension

/-- Only plain fields extend options. -/
def fieldRefusal? : Node → Option Refusal
  | .field _ => none
  | _ => some .notAPlainField

/-- Anything but a plain field, nodes or not. -/
def fieldsRefusal? (fields : List Value) : Option Refusal :=
  fields.findSome? fun v => match v.node? with
    | some n => fieldRefusal? n
    | none => some .notAPlainField

def ofParts (ps : Parts) : Checked Extension :=
  Extension.mk <$> ps.required "option_type" Read.target
    <*> ps.optional "comment" [] Read.texts
    <*> ps.optional "extension_fields" []
      (Read.guarded fieldsRefusal? (Read.elements (Read.node .field Field.ofNode?)))

end Extension

/-! ### Drafts -/

namespace Build

structure ExtensionDraft where
  target : Value
  comment : List Value := []
  fields : List Node := []

def ExtensionDraft.build (d : ExtensionDraft) : Except BuildError Node :=
  Checked.toNode .extension .extension <| Extension.ofParts
    [("option_type", d.target), ("comment", .tuple d.comment),
      ("extension_fields", .nodeList d.fields)]

end Build

end ProtoSchema
