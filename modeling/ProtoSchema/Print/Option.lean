import ProtoSchema.Print.Script
import ProtoSchema.Schema.OptionDecl

/-!
The text of options.

An option is a statement, or stands in the brackets behind a field or an enum value. A message value
takes a line for each entry in a statement, and one run for each entry in brackets.
-/

namespace ProtoSchema

open Print

namespace OptionEntry

def literal (e : OptionEntry) : Except FormatError String := e.type.format e.value

/-- The entry as a step, with what stands behind it. -/
def step (e : OptionEntry) (after : String) : Step := .literal (e.name ++ ": ") e.literal after

end OptionEntry

namespace OptionDecl

/-- The option as it stands in brackets. -/
def inlineScript (o : OptionDecl) : Script :=
  match o.value with
  | .literal type value => [.literal (o.writtenName ++ " = ") (type.format value) ""]
  | .entries entries =>
    .emit (o.writtenName ++ " = \x7b ") :: (entries.map (OptionEntry.step · " ") ++ [.emit "\x7d"])

/-- The option as a statement. -/
def statementScript (o : OptionDecl) : Script :=
  match o.value with
  | .literal type value =>
    [.literal ("option " ++ o.writtenName ++ " = ") (type.format value) ";\n"]
  | .entries entries =>
    .emit ("option " ++ o.writtenName ++ " = \x7b\n") :: .indent none ::
      (entries.map (OptionEntry.step · "\n") ++ [.unindent none, .emit "\x7d;\n"])

/-- Only statements are commented. -/
def script (o : OptionDecl) : Script :=
  if o.target.isInline then o.inlineScript else .comment o.comment :: o.statementScript

/-- Several options in brackets, or nothing. -/
def bracketScript (options : List OptionDecl) : Script :=
  if options.isEmpty then []
  else .emit " [" :: (List.intercalate [.emit ", "] (options.map inlineScript) ++ [.emit "]"])

end OptionDecl

end ProtoSchema
