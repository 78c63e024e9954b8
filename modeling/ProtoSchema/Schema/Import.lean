import ProtoSchema.Schema.FieldType

/-!
Imports, and the import list of a file.

The first import of a path stands for all of them, and the list is sorted by path.
-/

namespace ProtoSchema

structure Import where
  path : String
  modifier : ImportModifier := .plain
  deriving DecidableEq, Repr

namespace Import

/-- The file that every extension of options needs. -/
def descriptor : Import := ⟨"google/protobuf/descriptor.proto", .plain⟩

/-- The first import of each path. -/
def firstOfPath : List Import → List Import
  | [] => []
  | i :: is => i :: (firstOfPath is).filter fun j => j.path ≠ i.path

/-- Each path once, with its first import, in the order of the paths. -/
def canonical (imports : List Import) : List Import :=
  (firstOfPath imports).mergeSort fun i j => i.path ≤ j.path

theorem mem_of_mem_firstOfPath {i : Import} {is : List Import} (h : i ∈ firstOfPath is) :
    i ∈ is := by
  induction is with
  | nil => exact h
  | cons j js ih =>
    rcases List.mem_cons.1 h with rfl | h
    · exact List.mem_cons_self
    · exact List.mem_cons_of_mem j (ih (List.mem_filter.1 h).1)

theorem mem_of_mem_canonical {i : Import} {is : List Import} (h : i ∈ canonical is) : i ∈ is :=
  mem_of_mem_firstOfPath (List.mem_mergeSort.1 h)

end Import

end ProtoSchema
