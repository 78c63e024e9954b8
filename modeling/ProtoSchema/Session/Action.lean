import ProtoSchema.Node.Capability
import ProtoSchema.Node.Render
import ProtoSchema.Session.Call

/-!
Actions: changes of drafts, and what can be asked of nodes, drafts and other values.
-/

namespace ProtoSchema.Session

open Build Run

/-! ### Drafts -/

def acceptUnless (refusal? : Node → Option Refusal) (n : Node) : Run Unit :=
  unlessRefused (refusal? n)

/-- A setter's argument that may be left out. -/
def given (usual : Value) : List Value → Run Value
  | [] => pure usual
  | [v] => pure v
  | _ => unsupported

/-- The draft after an action. -/
def changed (d : Draft) : Action → List Value → Run Draft
  | .setComment, lines => ofExcept .refused (d.setComment lines)
  | .addOptions, items => do
    let t ← ofOption d.optionTarget?
    let ns ← buildAll (acceptTarget (.target t)) items
    pure (d.addOptions ns)
  | .setValue, [type, v] =>
    match d with
    | .option d => .option <$> ofExcept .refused (d.setValue type v)
    | _ => unsupported
  | .setEntries, vs =>
    match d with
    | .option d => .option <$> ofExcept .refused (d.setValue (.fieldType .message) (.tuple vs))
    | _ => unsupported
  | .addRanges, vs =>
    match d with
    | .reservation d => .reservation <$> ofExcept .refused (d.addRanges vs)
    | _ => unsupported
  | .addRange, [low, high] =>
    match d with
    | .reservation d => do
      let r ← range low high
      .reservation <$> ofExcept .refused (d.addRanges [.range r])
    | _ => unsupported
  | .setRepeated, vs =>
    match d with
    | .field d => do .field <$> ofExcept .refused (d.setRepeated (← given (.bool true) vs).truth)
    | _ => unsupported
  | .setOptional, vs =>
    match d with
    | .field d => do .field <$> ofExcept .refused (d.setOptional (← given (.bool true) vs).truth)
    | _ => unsupported
  | .setTypeName, [v] =>
    match d with
    | .field d => .field <$> ofExcept .refused (d.setTypeName v)
    | .mapField d => .mapField <$> ofExcept .refused (d.setTypeName v)
    | _ => unsupported
  | .addReservations, vs =>
    match d with
    | .enum d => do
      let ns ← buildAll acceptAll vs
      pure (.enum { d with reservations := d.reservations ++ ns })
    | .message d => do
      let ns ← buildAll acceptAll vs
      pure (.message { d with reservations := d.reservations ++ ns })
    | _ => unsupported
  | .addValues, vs =>
    match d with
    | .enum d => do
      let ns ← buildAll acceptAll vs
      pure (.enum { d with values := d.values ++ ns })
    | _ => unsupported
  | .addFields, vs =>
    match d with
    | .message d => do
      let ns ← buildAll (acceptUnless MessageDraft.fieldRefusal?) vs
      pure (.message { d with blocks := addBlock d.blocks ns })
    | .oneof d => do
      let ns ← buildAll (acceptUnless Oneof.memberRefusal?) vs
      pure (.oneof { d with members := d.members ++ ns })
    | .extension d => do
      let ns ← buildAll (acceptUnless Extension.fieldRefusal?) vs
      pure (.extension { d with fields := d.fields ++ ns })
    | _ => unsupported
  | .addMessages, vs | .addEnums, vs =>
    match d with
    | .message d => do
      let ns ← buildAll acceptAll vs
      pure (.message { d with blocks := addBlock d.blocks ns })
    | .file d => do
      let ns ← buildAll acceptAll vs
      pure (.file { d with blocks := addBlock d.blocks ns })
    | _ => unsupported
  | .addServices, vs | .addExtensions, vs =>
    match d with
    | .file d => do
      let ns ← buildAll acceptAll vs
      pure (.file { d with blocks := addBlock d.blocks ns })
    | _ => unsupported
  | .addImports, vs =>
    match d with
    | .file d => do
      let ns ← buildAll acceptAll vs
      pure (.file { d with imports := d.imports ++ ns })
    | _ => unsupported
  | .addMethods, vs =>
    match d with
    | .service d => do
      let ns ← buildAll acceptAll vs
      pure (.service { d with methods := d.methods ++ ns })
    | _ => unsupported
  | .setRequest, name :: streaming =>
    match d with
    | .method d => do
      let streaming ← given (.bool false) streaming
      pure (.method { d with request := name, requestStreaming := streaming })
    | _ => unsupported
  | .setResponse, name :: streaming =>
    match d with
    | .method d => do
      let streaming ← given (.bool false) streaming
      pure (.method { d with response := name, responseStreaming := streaming })
    | _ => unsupported
  | .setPackage, [v] =>
    match d with
    | .file d => pure (.file { d with package := v })
    | _ => unsupported
  | _, _ => unsupported

/-! ### Questions -/

/-- A value as a text; a draft and a member of an unknown enumeration have none. -/
def displayed : Value → Run String
  | .draft _ _ | .enumMember => unsupported
  | v => pure v.display

/-- The literal of a value that need not belong to the type. -/
def formatted (type : FieldType) (v : Value) : Run String :=
  match v.scalar? with
  | some s =>
    match type.format s with
    | .error (.notANumber _) => fail (.unformatted (.notANumber v.shown))
    | literal => ofExcept .unformatted literal
  | none =>
    if type = .bool then pure (if v.truth then "true" else "false")
    else if type.isFloating then unsupported
    else do ofExcept .unformatted (type.format (.text (← displayed v)))

/-- Parts, and what can be asked for like a part. -/
def partOf (v : Value) (name : String) : Run Value :=
  match v with
  | .node n =>
    match n, name with
    | .field f, "type_label" => pure (.text f.label)
    | n, name => ofOption (n.parts.lookup name)
  | .entry e => ofOption (e.parts.lookup name)
  | .choice c =>
    match c, name with
    | c, "name" => pure (.text c.constant)
    | c, "value" => pure (.text c.name)
    | .fieldType t, "is_user_defined" => pure (.bool t.isUserDefined)
    | .target t, "descriptor_name" => pure (.text t.descriptorName)
    | .target t, "is_inline" => pure (.bool t.isInline)
    | _, _ => unsupported
  | .range r =>
    match name with
    | "low" => pure (.ofQuantity r.low)
    | "high" => pure (.ofQuantity r.high)
    | _ => unsupported
  | .identity f =>
    match name with
    | "name" => pure (.text f.name)
    | "number" => pure ((f.number.map Value.int).getD .null)
    | _ => unsupported
  | .draft id _ => do
    match ← readDraft id, name with
    | .option d, "option_type" => pure d.target
    | _, _ => unsupported
  | _ => unsupported

/-- Parts of nodes and entries cannot be assigned. -/
def assignmentFault (v : Value) (name : String) : Run Value :=
  let frozen (kind : Kind) : Run Value := fail (.invalid ⟨kind, [⟨[.part name], .frozen⟩]⟩)
  match v with
  | .node n => frozen n.kind
  | .entry _ => frozen .entry
  | _ => unsupported

/-- What an object can do; values that are neither nodes nor drafts can do nothing. -/
def capabilitiesOf : Value → List Capability
  | .node n => n.capabilities
  | .draft _ _ => [.buildable]
  | _ => []

/-- What a node answers. -/
def answer (n : Node) : Action → List Value → Run Value
  | .print, args => do
    let style ← style args
    .text <$> ofExcept .ofRendering (n.print style)
  | .write, args => do
    let style ← style args
    ofExcept .ofWriting (n.check style)
    pure .null
  | .check, [] => do
    ofExcept .ofRendering (n.check .usual)
    pure .null
  | .imports, [] => do pure (.list ((← ofOption n.imports?).map fun i => .node (.imported i)))
  | .typeName, [] => .text <$> ofOption n.typeName?
  | .identity, [] => .identity <$> ofOption n.identity?
  | .groupName, [] => do pure (.text (← ofOption n.group?).1)
  | .memberIdentities, [] => do pure (.list ((← ofOption n.group?).2.map .identity))
  | .reservedNumbers, [] => do
    let r ← ofOption n.reservation?
    pure (.list ((← ofExcept (.refused <| .unlisted ·) r.reservedNumbers).map .int))
  | .reservedNames, [] => do pure (.list ((← ofOption n.reservation?).reservedNames.map .text))
  | .writtenName, [] =>
    match n with
    | .option o => pure (.text o.writtenName)
    | _ => unsupported
  | _, _ => unsupported

/-- An action on a value: those that any value may take first, then those of its kind. -/
def Action.apply (a : Action) (v : Value) (args : List Value) : Run Value :=
  match a, v, args with
  | .build, v, [] => .node <$> buildNode v
  | .part, v, [name] => do partOf v (← text name)
  | .assign, v, [name, _] => do assignmentFault v (← text name)
  | .capabilities, v, [] => pure (.list ((capabilitiesOf v).map fun c => .text c.label))
  | .display, v, [] => .text <$> displayed v
  | .numbers, v, [] => .list <$> contents v
  | .literal, .entry e, [] => .text <$> ofExcept .unformatted e.literal
  | .format, .choice (.fieldType t), [v] => .text <$> formatted t v
  | a, .node n, args => answer n a args
  | a, .draft id kind, args => do
    writeDraft id (← changed (← readDraft id) a args)
    pure (.draft id kind)
  | _, _, _ => unsupported

end ProtoSchema.Session
