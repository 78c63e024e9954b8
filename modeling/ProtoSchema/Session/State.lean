import ProtoSchema.Letter.Lower
import ProtoSchema.Node.Capability
import ProtoSchema.Node.Shown
import ProtoSchema.Session.Expr
import ProtoSchema.Session.Failure

/-!
The state of a session: what its variables are bound to, and the drafts that values refer to.

A run in a session ends in a value or a failure, and leaves a state in both cases. Drafts are
changed in place, so a change is seen through every value that refers to the draft.
-/

namespace ProtoSchema.Session

open Build
open Number (Quantity)

structure State where
  /-- The latest binding of a variable comes first. -/
  bindings : List (String × Value) := []
  drafts : Array Draft := #[]
  /-- How many values that are not a number have been read. -/
  notNumbers : Nat := 0

abbrev Run := EStateM Failure State

namespace Run

def fail {α : Type} (f : Failure) : Run α := throw f

def unsupported {α : Type} : Run α := fail .unsupported

def refuse {α : Type} (r : Refusal) : Run α := fail (.refused r)

def ofExcept {ε α : Type} (lift : ε → Failure) : Except ε α → Run α
  | .ok a => pure a
  | .error e => fail (lift e)

def ofOption {α : Type} : Option α → Run α
  | some a => pure a
  | none => unsupported

/-- Goes on unless there is a refusal. -/
def unlessRefused : Option Refusal → Run Unit
  | none => pure ()
  | some r => refuse r

/-! ### Drafts -/

/-- A value that refers to a new draft. -/
def newDraft (d : Draft) : Run Value :=
  modifyGet fun s => (.draft s.drafts.size d.kind, { s with drafts := s.drafts.push d })

def startDraft {α : Type} (draft : α → Draft) (d : Except Refusal α) : Run Value := do
  newDraft (draft (← ofExcept .refused d))

def readDraft (id : Nat) : Run Draft := do ofOption (← get).drafts[id]?

def writeDraft (id : Nat) (d : Draft) : Run Unit :=
  modify fun s => { s with drafts := s.drafts.setIfInBounds id d }

/-- The node that a value is, or that its draft builds. -/
def buildNode : Value → Run Node
  | .node n => pure n
  | .draft id _ => do ofExcept .ofBuildError (← readDraft id).build
  | _ => unsupported

/-- Builds one value after another; each node has to be admitted before the next is built. -/
def buildAll (accept : Node → Run Unit) : List Value → Run (List Node)
  | [] => pure []
  | v :: vs => do
    let n ← buildNode v
    accept n
    let ns ← buildAll accept vs
    pure (n :: ns)

def acceptAll (_ : Node) : Run Unit := pure ()

/-- A name in words. -/
def inWords (name : String) : String := (Letter.lower name).map fun c => if c = '_' then ' ' else c

/-- A construct in words, as options name it. Whatever else has a name will do. -/
def construct : Value → Run String
  | .choice c => pure c.words
  | .node n => inWords <$> ofOption ((n.parts.lookup "name").bind Value.text?)
  | .entry e => pure (inWords e.name)
  | .identity f => pure (inWords f.name)
  | _ => unsupported

/-- Refuses a target that is not the expected one. -/
def requireTarget (expected target : Value) : Run Unit := do
  let construct ← construct expected
  if target.same expected then pure () else refuse (.wrongTarget construct)

/-- Admits what is meant for a target, of all nodes that are meant for any. -/
def acceptTarget (expected : Value) (n : Node) : Run Unit := do
  requireTarget expected (.target (← ofOption n.target?))

/-! ### Variables and constants -/

def valueOf (name : String) : Run Value := do
  match (← get).bindings.lookup name with
  | some v => pure v
  | none => fail (.badRequest .unsetVariable)

def setVariable (name : String) (v : Value) : Run Unit :=
  modify fun s => { s with bindings := (name, v) :: s.bindings }

/-- Reads a constant. What is not a number is the same value only if it is one and the same
occurrence, so each occurrence gets bits of its own. -/
def constant : Value → Run Value
  | .scalar (.float x) =>
    if x.isNaN then do
      let s ← get
      set { s with notNumbers := s.notNumbers + 1 }
      pure (.scalar (.float (.ofParts false 2047 (Number.twoPow 51 + s.notNumbers))))
    else pure (.scalar (.float x))
  | v => pure v

/-- A member of an enumeration. -/
def member (enumeration : Enumeration) (given : Value) : Run Value :=
  match given.text?.bind (Choice.ofName? enumeration) with
  | some c => pure (.choice c)
  | none => refuse (.notAMember given.shown enumeration)

/-! ### Arguments -/

def text (v : Value) : Run String := ofOption v.text?

def quantity (v : Value) : Run Quantity := ofOption v.quantity?

/-- A range between two numbers; the low one is looked at before the high one is. -/
def range (low high : Value) : Run FieldRange := do
  let l ← quantity low
  unlessRefused ((FieldRange.lowError? l).map Refusal.range)
  let h ← quantity high
  ofExcept (.refused <| .range ·) (FieldRange.of? l h)

def contents (v : Value) : Run (List Value) := do
  unlessRefused (v.listingError?.map Refusal.unlisted)
  ofOption v.contents?

def node (v : Value) : Run Node := ofOption v.node?

/-- The style for the settings in the arguments, if there are any. -/
def style : List Value → Run Layout.Style
  | [] => pure .usual
  | [.settings s] => ofExcept .layout (Layout.Style.ofSettings? s)
  | [v] => if v.truth then unsupported else pure .usual
  | _ => unsupported

end Run

end ProtoSchema.Session
