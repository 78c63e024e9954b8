import ProtoSchema.Build.Enum
import ProtoSchema.Build.Extension
import ProtoSchema.Build.File
import ProtoSchema.Build.Import
import ProtoSchema.Build.Message
import ProtoSchema.Build.Oneof
import ProtoSchema.Build.Service

/-!
Drafts of all kinds, and what can be done with several of them.
-/

namespace ProtoSchema.Build

inductive Draft where
  | option (d : OptionDraft)
  | reservation (d : ReservationDraft)
  | field (d : FieldDraft)
  | mapField (d : MapFieldDraft)
  | oneof (d : OneofDraft)
  | enumValue (d : EnumValueDraft)
  | enum (d : EnumDraft)
  | message (d : MessageDraft)
  | method (d : MethodDraft)
  | service (d : ServiceDraft)
  | extension (d : ExtensionDraft)
  | file (d : FileDraft)

namespace Draft

def kind : Draft → Kind
  | option _ => .option
  | reservation _ => .reservation
  | field _ => .field
  | mapField _ => .mapField
  | oneof _ => .oneof
  | enumValue _ => .enumValue
  | enum _ => .enum
  | message _ => .message
  | method _ => .method
  | service _ => .service
  | extension _ => .extension
  | file _ => .file

def build : Draft → Except BuildError Node
  | option d => d.build
  | reservation d => d.build
  | field d => d.build
  | mapField d => d.build
  | oneof d => d.build
  | enumValue d => d.build
  | enum d => d.build
  | message d => d.build
  | method d => d.build
  | service d => d.build
  | extension d => d.build
  | file d => d.build

/-- Drafts of inline options refuse a comment. -/
def setComment (lines : List Value) : Draft → Except Refusal Draft
  | option d => (d.setComment lines).map option
  | reservation d => .ok (reservation { d with comment := lines })
  | field d => .ok (field { d with comment := lines })
  | mapField d => .ok (mapField { d with comment := lines })
  | oneof d => .ok (oneof { d with comment := lines })
  | enumValue d => .ok (enumValue { d with comment := lines })
  | enum d => .ok (enum { d with comment := lines })
  | message d => .ok (message { d with comment := lines })
  | method d => .ok (method { d with comment := lines })
  | service d => .ok (service { d with comment := lines })
  | extension d => .ok (extension { d with comment := lines })
  | file d => .ok (file { d with comment := lines })

/-- What options attached to the draft have to be meant for. -/
def optionTarget? : Draft → Option OptionTarget
  | field _ | mapField _ => some .field
  | oneof _ => some .oneof
  | enumValue _ => some .enumValue
  | enum _ => some .enum
  | message _ => some .message
  | method _ => some .method
  | service _ => some .service
  | file _ => some .file
  | option _ | reservation _ | extension _ => none

/-- Attaches options to a draft that takes any. -/
def addOptions (options : List Node) : Draft → Draft
  | field d => field { d with options := d.options ++ options }
  | mapField d => mapField { d with options := d.options ++ options }
  | oneof d => oneof { d with options := d.options ++ options }
  | enumValue d => enumValue { d with options := d.options ++ options }
  | enum d => enum { d with options := d.options ++ options }
  | message d => message { d with options := d.options ++ options }
  | method d => method { d with options := d.options ++ options }
  | service d => service { d with options := d.options ++ options }
  | file d => file { d with options := d.options ++ options }
  | d => d

end Draft

end ProtoSchema.Build
