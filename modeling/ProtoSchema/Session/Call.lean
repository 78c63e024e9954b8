import ProtoSchema.Session.State

/-!
Calls by name: nodes made at once, new drafts, and questions about values.
-/

namespace ProtoSchema.Session

open Build Run

/-- A node put together from its parts. -/
def assembled (kind : Kind) (ps : Parts) : Run Value := ofExcept .invalid (assemble kind ps)

/-- A draft of a plain field, changed right away. -/
def startField (type name number : Value) (change : FieldDraft → Except Refusal FieldDraft) :
    Run Value := do
  startDraft .field ((FieldDraft.start type name (← quantity number)).bind change)

/-- What options a value is meant for, built or not. -/
def targetOf : Value → Run Value
  | .node n => .target <$> ofOption n.target?
  | .draft id _ => do
    match ← readDraft id with
    | .option d => pure d.target
    | _ => unsupported
  | _ => unsupported

/-- Refuses the first value that is meant for something else. -/
def requireTargets (expected : Value) : List Value → Run Unit
  | [] => pure ()
  | v :: vs => do
    requireTarget expected (← targetOf v)
    requireTargets expected vs

/-- The pieces of a text; a text that is given as one consists of its characters. -/
def piecesOf (v : Value) : Run (List (List Char)) := do
  let pieces ← ofOption ((← contents v).mapM Value.text?)
  pure (pieces.map String.toList)

def segmentValue (s : Layout.Segment) : Value :=
  .tuple [.text (String.ofList s.gap), .text (String.ofList s.word)]

def segmentsOf (quoteAware : Bool) (pieces : List (List Char)) : Value :=
  .list ((Layout.segmentsOfPieces quoteAware pieces).map segmentValue)

/-- Values are compared; what is not a number on its own differs from itself. -/
def compared (v w : Value) : Bool :=
  match v, w with
  | .scalar (.float x), .scalar (.float y) => !x.isNaN && x.same y
  | v, w => v.same w

def Callee.apply : Callee → List Value → Run Value
  | .inferType, [v] => pure (.fieldType v.inferType)
  | .entry, [name, type, v] =>
    assembled .entry [("name", name), ("value_type", type), ("value", v)]
  | .inferredEntry, [name, v] =>
    assembled .entry [("name", name), ("value_type", .fieldType v.inferType), ("value", v)]
  | .range, [low, high] => .range <$> Run.range low high
  | .imported, [path] => assembled .imported [("path", path)]
  | .imported, [path, modifier] => assembled .imported [("path", path), ("modifier", modifier)]
  | .option, [target, name] => newDraft (.option { target, name })
  | .optionFor t, [name] => newDraft (.option { target := .target t, name })
  | .reservation, items => startDraft .reservation (ReservationDraft.ofItems items)
  | .field, [type, name, number] => startField type name number .ok
  | .repeatedField, [type, name, number] => startField type name number (·.setRepeated true)
  | .optionalField, [type, name, number] => startField type name number (·.setOptional true)
  | .messageField, [typeName, name, number] =>
    startField (.fieldType .message) name number (·.setTypeName typeName)
  | .enumField, [typeName, name, number] =>
    startField (.fieldType .enum) name number (·.setTypeName typeName)
  | .mapField, [key, v, name, number] => do
    unlessRefused (MapFieldDraft.keyTypeRefusal? key)
    startDraft .mapField (MapFieldDraft.start key v name (← quantity number))
  | .oneof, [name] => newDraft (.oneof { name })
  | .enumValue, [name, number] => do
    startDraft .enumValue (EnumValueDraft.start name (← quantity number))
  | .enum, [name] => newDraft (.enum { name })
  | .message, [name] => newDraft (.message { name })
  | .method, [name] => newDraft (.method { name })
  | .service, [name] => newDraft (.service { name })
  | .extension, [target] => newDraft (.extension { target })
  | .file, [] => newDraft (.file {})
  | .checkValue, [type, v] => do
    unlessRefused (valueRefusal? type v)
    pure .null
  | .buildOptions, [items, t] => do
    let ns ← buildAll (acceptTarget t) (← contents items)
    pure (.nodeList ns)
  | .checkTargets, [items, t] => do
    requireTargets t (← contents items)
    pure .null
  | .segments, [line] => do pure (segmentsOf true (← piecesOf line))
  | .segments, [line, quoteAware] => do pure (segmentsOf quoteAware.truth (← piecesOf line))
  | .equal, [v, w] => pure (.comparison (compared v w))
  | _, _ => unsupported

end ProtoSchema.Session
