import ProtoSchema.Print.Message
import ProtoSchema.Schema.File

/-!
The text of a file: comment, syntax, package, imports, options, and the blocks of declarations.
-/

namespace ProtoSchema

open Print Usage

namespace Declaration

def script : Declaration → Script
  | message m => m.script
  | enum e => e.script
  | service s => s.script
  | extension e => e.script

def register (s : TypeScope) (d : Declaration) : TypeScope × Option Rejection :=
  rejecting (s.register d.typeName)

/-- The blocks, each below a blank line. -/
def blocksScript : TypeScope → List (List Declaration) → Script
  | _, [] => []
  | s, b :: bs =>
    let block := registered register script s b
    .emit "\n" :: (block.1 ++ blocksScript block.2 bs)

end Declaration

namespace File

/-- A part that stands below a blank line, unless it is empty. -/
def part {α : Type} (elements : List α) (script : α → Script) : Script :=
  if elements.isEmpty then [] else .emit "\n" :: elements.flatMap script

def packageScript (f : File) : Script :=
  match f.package with
  | none => []
  | some package => [.emit ("\npackage " ++ package ++ ";\n")]

def script (f : File) : Script :=
  .comment f.comment :: .emit "syntax = \"proto3\";\n" ::
    (f.packageScript ++ part f.imports Import.script ++ part f.options OptionDecl.script ++
      Declaration.blocksScript {} f.blocks)

end File

end ProtoSchema
