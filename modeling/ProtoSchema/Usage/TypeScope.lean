import ProtoSchema.Usage.Conflict
import Std.Data.ExtTreeSet

/-!
The type names declared directly inside one file or message.
-/

namespace ProtoSchema.Usage

structure TypeScope where
  /-- The declaration that the names stand in; a file has no name. -/
  owner : Option String := none
  names : Std.ExtTreeSet String := ∅

namespace TypeScope

def conflict? (s : TypeScope) (name : String) : Option Conflict :=
  if name ∈ s.names then some (.usedTypeName name s.owner) else none

def register (s : TypeScope) (name : String) : TypeScope × Option Conflict :=
  match s.conflict? name with
  | some c => (s, some c)
  | none => ({ s with names := s.names.insert name }, none)

theorem conflict?_eq_none {s : TypeScope} {name : String} :
    s.conflict? name = none ↔ name ∉ s.names := by
  simp [conflict?]

theorem mem_names_register {s : TypeScope} {name other : String} :
    other ∈ (s.register name).1.names ↔ other = name ∨ other ∈ s.names := by
  by_cases h : name ∈ s.names
  · simp only [register, conflict?, h, if_true]
    grind
  · simp only [register, conflict?, h, if_false, Std.ExtTreeSet.mem_insert]
    grind

end TypeScope

end ProtoSchema.Usage
