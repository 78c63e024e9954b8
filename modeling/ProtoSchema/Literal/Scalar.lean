import ProtoSchema.Number.Quantity
import ProtoSchema.Schema.FieldType

/-!
Scalar values, and the types they may have.

A value belongs to a type if it is of the right kind and, for an integer type, within its range. A
truth value is never a number.
-/

namespace ProtoSchema

open Number (Binary64 Quantity)

inductive Scalar where
  | bool (b : Bool)
  | int (n : Int)
  | float (x : Binary64)
  | text (s : String)
  | bytes (b : List UInt8)
  deriving Repr

namespace Scalar

/-- What reports call the kind of a value. -/
def kind : Scalar → String
  | bool _ => "bool"
  | int _ => "int"
  | float _ => "float"
  | text _ => "str"
  | bytes _ => "bytes"

/-- The type of a value for which none is given. -/
def inferType : Scalar → FieldType
  | bool _ => .bool
  | int n => if -2147483648 ≤ n ∧ n ≤ 2147483647 then .int32 else .int64
  | float _ => .double
  | text _ => .string
  | bytes _ => .bytes

/-- The value as a number, if it is one; a truth value counts as one. -/
def quantity? : Scalar → Option Quantity
  | bool b => some (.truth b)
  | int n => some (.whole n)
  | float x => some (.real x)
  | _ => none

def ofQuantity : Quantity → Scalar
  | .truth b => bool b
  | .whole n => int n
  | .real x => float x

/-- Values are the same if they are equal as numbers, as texts or as bytes. -/
def same : Scalar → Scalar → Bool
  | text s, text t => s = t
  | bytes b, bytes c => b = c
  | v, w => match v.quantity?, w.quantity? with
    | some p, some q => p.same q
    | _, _ => false

instance : BEq Scalar := ⟨same⟩

end Scalar

/-- Why a value is not one of a type. -/
inductive Mismatch where
  | notEntries
  | wrongKind (kind : String) (type : FieldType)
  | outOfRange (n : Int) (type : FieldType)
  deriving DecidableEq, Repr

def Mismatch.message : Mismatch → String
  | .notEntries => "message values must be a sequence of field values"
  | .wrongKind kind type => "'" ++ kind ++ "' invalid type for " ++ type.name ++ " values"
  | .outOfRange n type => toString n ++ " is out of range for " ++ type.name ++ " values"

namespace FieldType

/-- The kind of a value suits the type. -/
def suits (t : FieldType) (v : Scalar) : Bool :=
  match t, v with
  | .double, .float _ | .double, .int _ | .float, .float _ | .float, .int _ => true
  | .bool, .bool _ => true
  | .bytes, .bytes _ | .bytes, .text _ => true
  | .string, .text _ | .enum, .text _ => true
  | _, .int _ => t.range?.isSome
  | _, _ => false

/-- Why a value is not one of the type; there are no scalar values of a message type. -/
def mismatch? (t : FieldType) (v : Scalar) : Option Mismatch :=
  if t = .message then some .notEntries
  else if t.suits v then
    match t.range?, v with
    | some (low, high), .int n =>
      if low ≤ n ∧ n ≤ high then none else some (.outOfRange n t)
    | _, _ => none
  else some (.wrongKind v.kind t)

/-- The types by the values that suit them: a text may stand for bytes, and a whole number for
a real one. -/
inductive Suited : FieldType → Scalar → Prop
  | truth (b : Bool) : Suited .bool (.bool b)
  | whole {t : FieldType} (n : Int) (h : t.range?.isSome ∨ t.isFloating) : Suited t (.int n)
  | real {t : FieldType} (x : Binary64) (h : t.isFloating) : Suited t (.float x)
  | name (s : String) : Suited .enum (.text s)
  | text (s : String) : Suited .string (.text s)
  | byteText (s : String) : Suited .bytes (.text s)
  | bytes (b : List UInt8) : Suited .bytes (.bytes b)

theorem suited_of_mismatch? {t : FieldType} {v : Scalar} (h : t.mismatch? v = none) :
    Suited t v := by
  have hs : t.suits v = true := by
    unfold mismatch? at h
    split at h
    · cases h
    · split at h
      · assumption
      · cases h
  unfold suits at hs
  split at hs
  · exact .real _ rfl
  · exact .whole _ (.inr rfl)
  · exact .real _ rfl
  · exact .whole _ (.inr rfl)
  · exact .truth _
  · exact .bytes _
  · exact .byteText _
  · exact .text _
  · exact .name _
  · exact .whole _ (.inl hs)
  · cases hs

end FieldType

end ProtoSchema
