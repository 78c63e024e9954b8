import ProtoSchema.Schema.Extension
import ProtoSchema.Schema.Import
import ProtoSchema.Schema.Message
import ProtoSchema.Schema.Service

/-!
Files, made of blocks of top level declarations.
-/

namespace ProtoSchema

inductive Declaration where
  | message (m : Message)
  | enum (e : EnumDecl)
  | service (s : Service)
  | extension (e : Extension)

namespace Declaration

def typeName : Declaration → String
  | message m => m.name
  | enum e => e.name
  | service s => s.name
  | extension e => e.typeName

/-- The imports that the declaration brings with it. -/
def imports : Declaration → List Import
  | extension _ => [.descriptor]
  | _ => []

end Declaration

structure File where
  comment : List String := []
  package : Option String := none
  explicitImports : List Import := []
  options : List OptionDecl := []
  blocks : List (List Declaration) := []

/-- The import list: explicit imports go before those that declarations bring with them. -/
def File.imports (f : File) : List Import :=
  Import.canonical (f.explicitImports ++ f.blocks.flatten.flatMap Declaration.imports)

end ProtoSchema
