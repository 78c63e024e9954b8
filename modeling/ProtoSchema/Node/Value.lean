import ProtoSchema.Node.Equality
import ProtoSchema.Schema.Enumeration

/-!
Values: whatever can be a part of a node, an argument of a call, or its result.

The members of the enumerations count as texts, namely as their names. A draft is a reference, so
that two values may stand for the same draft.
-/

namespace ProtoSchema

open Number (Quantity)
open Usage (FieldIdentity)

inductive Value where
  | null
  | scalar (s : Scalar)
  | list (vs : List Value)
  | tuple (vs : List Value)
  | choice (c : Choice)
  /-- A member of some other enumeration, which is no text. -/
  | enumMember
  | settings (s : Layout.Settings)
  | identity (f : FieldIdentity)
  | range (r : FieldRange)
  | entry (e : OptionEntry)
  | node (n : Node)
  | draft (id : Nat) (kind : Kind)
  /-- The outcome of a comparison. -/
  | comparison (equal : Bool)

instance : Inhabited Value := ⟨.null⟩

namespace Value

def text (s : String) : Value := .scalar (.text s)

def int (n : Int) : Value := .scalar (.int n)

def bool (b : Bool) : Value := .scalar (.bool b)

def ofQuantity (q : Quantity) : Value := .scalar (.ofQuantity q)

def fieldType (t : FieldType) : Value := .choice (.fieldType t)

def target (t : OptionTarget) : Value := .choice (.target t)

def texts (ss : List String) : Value := .tuple (ss.map text)

def nodes {α : Type} (node : α → Node) (as : List α) : Value :=
  .tuple (as.map fun a => .node (node a))

/-! ### Views -/

/-- The value as a scalar; members of the enumerations are texts. -/
def scalar? : Value → Option Scalar
  | .scalar s => some s
  | .choice c => some (.text c.name)
  | _ => none

def text? (v : Value) : Option String :=
  match v.scalar? with
  | some (.text s) => some s
  | _ => none

def quantity? (v : Value) : Option Quantity := v.scalar?.bind Scalar.quantity?

def int? (v : Value) : Option Int := v.quantity?.bind Quantity.whole?

def bool? : Value → Option Bool
  | .scalar (.bool b) => some b
  | _ => none

def fieldType? (v : Value) : Option FieldType := v.text?.bind FieldType.ofName?

def target? (v : Value) : Option OptionTarget := v.text?.bind OptionTarget.ofName?

def modifier? (v : Value) : Option FieldModifier := v.text?.bind FieldModifier.ofName?

def importModifier? (v : Value) : Option ImportModifier := v.text?.bind ImportModifier.ofName?

def node? : Value → Option Node
  | .node n => some n
  | _ => none

/-- Nothing, zero and whatever is empty counts as false. -/
def truth : Value → Bool
  | .null => false
  | .scalar s => s.truth
  | .list vs | .tuple vs => !vs.isEmpty
  | .choice c => c.name ≠ ""
  | .settings s => s ≠ {}
  | _ => true

/-! ### Kinds and types -/

/-- What reports call the kind of a value. -/
def kind : Value → String
  | .null => "NoneType"
  | .scalar s => s.kind
  | .list _ => "list"
  | .tuple _ => "tuple"
  | .choice c => c.enumeration.label
  | .enumMember => "Enum"
  | .settings _ => "dict"
  | .identity _ => "FieldIdentity"
  | .range _ => "FieldRange"
  | .entry _ => Kind.entry.label
  | .node n => n.kind.label
  | .draft _ kind => kind.label ++ "Builder"
  | .comparison _ => "dict"

/-- The type of a value for which none is given; what is neither scalar nor a member of an
enumeration is taken for a message. -/
def inferType (v : Value) : FieldType :=
  match v with
  | .enumMember => .enum
  | v => match v.scalar? with
    | some s => s.inferType
    | none => .message

/-- Why a value is not one of a type. -/
def mismatch? (t : FieldType) (v : Value) : Option Mismatch :=
  if t = .message then some .notEntries
  else match v.scalar? with
    | none => some (.wrongKind v.kind t)
    | some s => if t.suits s then t.mismatch? s else some (.wrongKind v.kind t)

/-! ### Equality -/

mutual

/-- Values are the same if they are equal as numbers, as texts, or part by part. -/
def same : Value → Value → Bool
  | .null, .null => true
  | .list vs, .list ws => sameList vs ws
  | .tuple vs, .tuple ws => sameList vs ws
  | .settings s, .settings t => s = t
  | .identity f, .identity g => f = g
  | .range r, .range s => r == s
  | .entry e, .entry f => e == f
  | .node m, .node n => m == n
  | .draft i _, .draft j _ => i = j
  | v, w =>
    match v.scalar?, w.scalar? with
    | some s, some t => s == t
    | _, _ => false

def sameList : List Value → List Value → Bool
  | [], [] => true
  | v :: vs, w :: ws => same v w && sameList vs ws
  | _, _ => false

end

end Value

end ProtoSchema
