import ProtoSchema.Build.Option

/-!
Files, made from parts, and their drafts.
-/

namespace ProtoSchema

open Build

namespace File

def refusal? (f : File) : Option Refusal := targetRefusal? .file f.options

def ofParts (ps : Parts) : Checked File :=
  (File.mk <$> ps.optional "comment" [] Read.texts
    <*> ps.optional "package" none Read.textOrNull
    <*> ps.optional "explicit_imports" []
      (Read.elements <| Read.node .imported fun
        | .imported i => some i
        | _ => none)
    <*> ps.optional "options" [] Read.options
    <*> ps.optional "blocks" []
      (Read.elements (Read.elements (Read.nodeOf Declaration.kinds Declaration.ofNode?)))).verify
    refusal?

end File

/-! ### Drafts -/

namespace Build

structure FileDraft where
  comment : List Value := []
  package : Value := .null
  imports : List Node := []
  options : List Node := []
  blocks : List (List Node) := []

def FileDraft.build (d : FileDraft) : Except BuildError Node :=
  Checked.toNode .file .file <| File.ofParts
    [("comment", .tuple d.comment), ("package", d.package),
      ("explicit_imports", .nodeList d.imports), ("options", .nodeList d.options),
      ("blocks", .blocks id d.blocks)]

end Build

end ProtoSchema
