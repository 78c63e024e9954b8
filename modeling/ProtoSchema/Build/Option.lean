import ProtoSchema.Build.Read

/-!
Options and their entries, made from parts, and drafts of options.

A draft is a declaration in the making, whose parts are kept as they are stated. Some mistakes are
refused where they are made, the others once the draft is built.
-/

namespace ProtoSchema

open Build

/-! ### Entries -/

namespace OptionEntry

def refusal? (e : OptionEntry) : Option Refusal := (e.type.mismatch? e.value).map .value

def ofParts (ps : Parts) : Checked OptionEntry :=
  (OptionEntry.mk <$> ps.required "name" Read.text
    <*> ps.required "value_type" Read.fieldType
    <*> ps.required "value" fun v => .ofOption .unreadable v.scalar?).verify refusal?

end OptionEntry

/-! ### Options -/

namespace OptionDecl

/-- An option as it is stated: type and value need not go together yet. -/
structure Stated where
  target : OptionTarget
  name : String
  comment : List String
  type : FieldType
  value : Scalar ⊕ List OptionEntry

/-- A literal or the entries of a message. -/
def readValue (v : Value) : Checked (Scalar ⊕ List OptionEntry) :=
  match v.elements? with
  | some _ => .inr <$> Read.elements Read.entry v
  | none => .inl <$> .ofOption .unreadable v.scalar?

/-- Entries go with the message type only, and no literal does. -/
def Stated.value? (s : Stated) : Except Refusal OptionValue :=
  match s.value with
  | .inr entries =>
    if s.type = .message then .ok (.entries entries)
    else .error (.value (.wrongKind "tuple" s.type))
  | .inl v =>
    match s.type.mismatch? v with
    | some m => .error (.value m)
    | none => .ok (.literal s.type v)

def Stated.settle (s : Stated) : Except Refusal OptionDecl :=
  if s.target.isInline && !s.comment.isEmpty then .error .inlineComment
  else s.value?.map fun value => ⟨s.target, s.name, s.comment, value⟩

def ofParts (ps : Parts) : Checked OptionDecl :=
  (Stated.mk <$> ps.required "option_type" Read.target
    <*> ps.required "name" Read.text
    <*> ps.optional "comment" [] Read.texts
    <*> ps.required "value_type" Read.fieldType
    <*> ps.required "value" readValue).settle Stated.settle

end OptionDecl

namespace Build

/-- Every option has to be meant for the construct it is attached to. -/
def targetRefusal? (expected : OptionTarget) (options : List OptionDecl) : Option Refusal :=
  if options.all fun o => o.target = expected then none else some (.wrongTarget expected.label)

def Read.options : Value → Checked (List OptionDecl) :=
  Read.elements <| Read.node .option fun
    | .option o => some o
    | _ => none

end Build

/-! ### Drafts -/

namespace Build

/-- Why a value does not go with a type. Nothing but texts goes with a type that is not known. -/
def valueRefusal? (type v : Value) : Option Refusal :=
  match type.fieldType? with
  | some t => (v.mismatch? t).map .value
  | none => if v.text?.isSome then none else some (.unknownType v.kind type.display)

/-- The entries that a value consists of, unless it is a text or bytes. -/
def entriesOf (v : Value) : Except Refusal (List Value) :=
  match v.listingError?, v.scalar?, v.contents? with
  | some e, _, _ => .error (.unlisted e)
  | none, none, some vs => .ok vs
  | none, _, _ => .error (.value .notEntries)

structure OptionDraft where
  target : Value
  name : Value
  comment : List Value := []
  type : Value := .null
  value : Value := .null

namespace OptionDraft

def isInline (d : OptionDraft) : Bool :=
  match d.target with
  | .choice (.target t) => t.isInline
  | _ => false

def setComment (d : OptionDraft) (lines : List Value) : Except Refusal OptionDraft :=
  if d.isInline then .error .inlineComment else .ok { d with comment := lines }

/-- Sets type and value; a value of the message type is whatever has contents. -/
def setValue (d : OptionDraft) (type v : Value) : Except Refusal OptionDraft :=
  if type.fieldType? = some .message then
    (entriesOf v).map fun vs => { d with type, value := .tuple vs }
  else
    match valueRefusal? type v with
    | some r => .error r
    | none => .ok { d with type, value := v }

def build (d : OptionDraft) : Except BuildError Node :=
  match d.type, d.value with
  | .null, _ | _, .null => .error (.refused (.valueMissing d.name.display))
  | type, value =>
    Checked.toNode .option .option <| OptionDecl.ofParts
      [("option_type", d.target), ("name", d.name), ("comment", .tuple d.comment),
        ("value_type", type), ("value", value)]

end OptionDraft

end Build

end ProtoSchema
