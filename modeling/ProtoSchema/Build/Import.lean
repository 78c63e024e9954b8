import ProtoSchema.Build.Read

/-!
Imports, made from parts.
-/

namespace ProtoSchema

open Build

namespace Import

def pathRefusal? (path : String) : Option Refusal :=
  if ".proto".toList.isSuffixOf path.toList then none else some .pathExtension

def ofParts (ps : Parts) : Checked Import :=
  Import.mk <$> ps.required "path" (fun v => (Read.text v).verify pathRefusal?)
    <*> ps.optional "modifier" .plain Read.importModifier

end Import

end ProtoSchema
