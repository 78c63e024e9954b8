import ProtoSchema.Build.Checked
import ProtoSchema.Node.Shown

/-!
How named parts are read.

A part that is required may be missing. One that has a usual value may be left out, and is then not
looked at.
-/

namespace ProtoSchema

open Build

namespace Parts

variable {α : Type}

def required (ps : Parts) (name : String) (read : Value → Checked α) : Checked α :=
  match ps.lookup name with
  | none => (Checked.fault .missing).within (.part name)
  | some v => (read v).within (.part name)

def optional (ps : Parts) (name : String) (usual : α) (read : Value → Checked α) : Checked α :=
  match ps.lookup name with
  | none => .sound usual
  | some v => (read v).within (.part name)

end Parts

/-! ### Parts left out -/

namespace Build

/-- The parts of a node that have no usual value. -/
def requiredParts : Kind → List String
  | .bare | .reservation | .file => []
  | .option => ["option_type", "name", "value_type", "value"]
  | .entry => ["name", "value_type", "value"]
  | .imported => ["path"]
  | .field => ["field_type", "name", "number"]
  | .mapField => ["key_type", "value_type", "name", "number"]
  | .enumValue => ["name", "number"]
  | .method => ["name", "request", "response"]
  | .oneof | .enum | .message | .service => ["name"]
  | .extension => ["option_type"]

def missing (parts : List String) : List Fault := parts.map fun name => ⟨[.part name], .missing⟩

/-- What is wrong with a node of which no part is given. -/
def withoutParts : Kind → List Fault
  | .reservation => [⟨[], .refused .nothingReserved⟩]
  | k => missing (requiredParts k)

end Build

/-! ### Readers -/

namespace Build.Read

variable {α : Type}

def text (v : Value) : Checked String := .ofOption .unreadable v.text?

/-- A text, or nothing at all. -/
def textOrNull : Value → Checked (Option String)
  | .null => .sound none
  | v => some <$> text v

def int (v : Value) : Checked Int := .ofOption .unreadable v.int?

def bool (v : Value) : Checked Bool := .ofOption .unreadable v.bool?

def fieldType (v : Value) : Checked FieldType := .ofOption .unreadable v.fieldType?

def target (v : Value) : Checked OptionTarget := .ofOption .unreadable v.target?

def modifier (v : Value) : Checked FieldModifier := .ofOption .unreadable v.modifier?

def importModifier (v : Value) : Checked ImportModifier := .ofOption .unreadable v.importModifier?

def elements (read : Value → Checked α) (v : Value) : Checked (List α) :=
  match v.elements? with
  | none => .fault .unreadable
  | some vs => Checked.all read 0 vs

def texts : Value → Checked (List String) := elements text

def ints : Value → Checked (List Int) := elements int

/-- What is wrong with a value in place of a node. Any named parts are taken for those of a node,
even if none of them is one. -/
def nodeFaults (kind : Kind) (v : Value) : List Fault :=
  if v.isTable then withoutParts kind else [⟨[], .wrongKind kind⟩]

/-- A node of one kind. -/
def node (kind : Kind) (part? : Node → Option α) (v : Value) : Checked α :=
  match v.node?.bind part? with
  | some a => .sound a
  | none => .faulty (nodeFaults kind v)

/-- A node of one of several kinds; all of them are reported if none fits. -/
def nodeOf (kinds : List Kind) (part? : Node → Option α) (v : Value) : Checked α :=
  match v.node?.bind part? with
  | some a => .sound a
  | none => .faulty (kinds.flatMap fun k => (nodeFaults k v).map (Fault.within (.kind k)))

def entry : Value → Checked OptionEntry
  | .entry e => .sound e
  | v => .faulty (nodeFaults .entry v)

def range : Value → Checked FieldRange
  | .range r => .sound r
  | v => if v.isTable then .faulty (missing ["low", "high"]) else .fault .unreadable

/-- Reads a part unless what it consists of is refused. -/
def guarded (refusal? : List Value → Option Refusal) (read : Value → Checked α) (v : Value) :
    Checked α :=
  match refusal? (v.contents?.getD []) with
  | some r => .refuse r
  | none => read v

end Build.Read

end ProtoSchema
