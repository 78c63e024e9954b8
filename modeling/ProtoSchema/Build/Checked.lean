import ProtoSchema.Build.Refusal
import ProtoSchema.Node.Basic

/-!
Values that come with the faults found on the way to them.

Two parts are looked at independently and their faults add up in order. A check of the whole runs
only once all parts are sound, and stops at its first refusal.
-/

namespace ProtoSchema.Build

/-- A step on the way to the place of a fault. -/
inductive Place where
  | part (name : String)
  | index (i : Nat)
  | kind (k : Kind)
  deriving DecidableEq, Repr

inductive FaultCause where
  | missing
  | refused (r : Refusal)
  | wrongKind (expected : Kind)
  | frozen
  /-- The value cannot be read as a part of this type at all. -/
  | unreadable
  deriving DecidableEq, Repr

def FaultCause.message : FaultCause → String
  | missing => "Field required"
  | refused r => "Value error, " ++ r.message
  | wrongKind expected => "Input should be a valid dictionary or instance of " ++ expected.label
  | frozen => "Instance is frozen"
  | unreadable => "Input should be valid"

structure Fault where
  place : List Place
  cause : FaultCause
  deriving DecidableEq, Repr

/-- The same fault, one step further down. -/
def Fault.within (place : Place) (f : Fault) : Fault := { f with place := place :: f.place }

/-- The faults of an attempt to make something of a kind. -/
structure Invalid where
  kind : Kind
  faults : List Fault
  deriving DecidableEq, Repr

/-- Why a draft cannot be built: it is refused at once, or what it states has faults. -/
inductive BuildError where
  | refused (r : Refusal)
  | invalid (i : Invalid)
  deriving DecidableEq, Repr

inductive Checked (α : Type) where
  | sound (a : α)
  | faulty (faults : List Fault)

namespace Checked

variable {α β : Type}

protected def map (f : α → β) : Checked α → Checked β
  | sound a => sound (f a)
  | faulty faults => faulty faults

/-- Applies one to the other; the faults of both are kept. -/
def apply : Checked (α → β) → Checked α → Checked β
  | sound f, sound a => sound (f a)
  | sound _, faulty faults => faulty faults
  | faulty faults, sound _ => faulty faults
  | faulty first, faulty second => faulty (first ++ second)

instance : Applicative Checked where
  pure := sound
  map := Checked.map
  seq f x := apply f (x ())

/-- A single fault at the place in question. -/
def fault (cause : FaultCause) : Checked α := faulty [⟨[], cause⟩]

def refuse (r : Refusal) : Checked α := fault (.refused r)

def ofOption (cause : FaultCause) : Option α → Checked α
  | some a => sound a
  | none => fault cause

/-- The same, one step further down. -/
def within (place : Place) : Checked α → Checked α
  | sound a => sound a
  | faulty faults => faulty (faults.map (Fault.within place))

/-- A second look at what is sound so far. -/
def settle (x : Checked α) (f : α → Except Refusal β) : Checked β :=
  match x with
  | faulty faults => faulty faults
  | sound a => match f a with
    | .ok b => sound b
    | .error r => refuse r

/-- Keeps what a check does not refuse. -/
def verify (x : Checked α) (refusal? : α → Option Refusal) : Checked α :=
  x.settle fun a => match refusal? a with
    | some r => .error r
    | none => .ok a

/-- All elements, each at its index. -/
def all (read : α → Checked β) (start : Nat) : List α → Checked (List β)
  | [] => sound []
  | a :: as => List.cons <$> (read a).within (.index start) <*> all read (start + 1) as

/-- The value, or its faults as those of a kind. -/
def toExcept (kind : Kind) : Checked α → Except Invalid α
  | sound a => .ok a
  | faulty faults => .error ⟨kind, faults⟩

/-- The node that a draft of a kind comes to. -/
def toNode (kind : Kind) (node : α → Node) (x : Checked α) : Except BuildError Node :=
  match x with
  | sound a => .ok (node a)
  | faulty faults => .error (.invalid ⟨kind, faults⟩)

/-! ### Soundness -/

@[simp] theorem map_eq_sound {f : α → β} {x : Checked α} {b : β} :
    f <$> x = sound b ↔ ∃ a, x = sound a ∧ f a = b := by
  cases x <;> simp [Functor.map, Checked.map]

@[simp] theorem seq_eq_sound {f : Checked (α → β)} {x : Checked α} {b : β} :
    f <*> x = sound b ↔ ∃ g a, f = sound g ∧ x = sound a ∧ g a = b := by
  cases f <;> cases x <;> simp [Seq.seq, apply]

@[simp] theorem within_eq_sound {place : Place} {x : Checked α} {a : α} :
    x.within place = sound a ↔ x = sound a := by
  cases x <;> simp [within]

theorem settle_eq_sound {x : Checked α} {f : α → Except Refusal β} {b : β} :
    x.settle f = sound b ↔ ∃ a, x = sound a ∧ f a = .ok b := by
  cases x with
  | faulty faults => simp [settle]
  | sound a => cases h : f a <;> simp [settle, h, refuse, fault]

theorem verify_eq_sound {x : Checked α} {refusal? : α → Option Refusal} {a : α} :
    x.verify refusal? = sound a ↔ x = sound a ∧ refusal? a = none := by
  rw [verify, settle_eq_sound]
  constructor
  · rintro ⟨c, hc, h⟩
    cases hr : refusal? c with
    | some r => simp [hr] at h
    | none => simp only [hr, Except.ok.injEq] at h; subst h; exact ⟨hc, hr⟩
  · rintro ⟨hx, hr⟩
    exact ⟨a, hx, by simp [hr]⟩

theorem toNode_eq_ok {kind : Kind} {node : α → Node} {x : Checked α} {n : Node} :
    x.toNode kind node = .ok n ↔ ∃ a, x = sound a ∧ node a = n := by
  cases x <;> simp [toNode]

end Checked

end ProtoSchema.Build
