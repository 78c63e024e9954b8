import Mathlib.Data.List.Dedup
import ProtoSchema.Node.Basic
import ProtoSchema.Proofs.Tree

/-!
The scopes of a tree: what has to be unique in it, and where.

A message, an enum, a service and an extension are scopes of names and numbers; a message and a
file are scopes of the types declared directly in them. Nothing here depends on the order in which
a tree is written.
-/

namespace ProtoSchema

/-- Names, numbers and type names used in one place, each as often as it is used. -/
structure Scope where
  names : List String := []
  numbers : List Int := []
  types : List String := []

namespace Scope

/-- Nothing is used twice. -/
structure Unique (s : Scope) : Prop where
  names : s.names.Nodup
  numbers : s.numbers.Nodup
  types : s.types.Nodup

instance (s : Scope) : Decidable s.Unique :=
  decidable_of_iff (s.names.Nodup ∧ s.numbers.Nodup ∧ s.types.Nodup)
    ⟨fun ⟨h₁, h₂, h₃⟩ => ⟨h₁, h₂, h₃⟩, fun h => ⟨h.names, h.numbers, h.types⟩⟩

instance : Append Scope :=
  ⟨fun s t => ⟨s.names ++ t.names, s.numbers ++ t.numbers, s.types ++ t.types⟩⟩

/-- What several elements use. -/
def all {α : Type} (uses : α → Scope) (as : List α) : Scope where
  names := as.flatMap fun a => (uses a).names
  numbers := as.flatMap fun a => (uses a).numbers
  types := as.flatMap fun a => (uses a).types

lemma append_def (s t : Scope) :
    s ++ t = ⟨s.names ++ t.names, s.numbers ++ t.numbers, s.types ++ t.types⟩ := rfl

@[simp] lemma empty_append (s : Scope) : {} ++ s = s := rfl

@[simp] lemma append_empty (s : Scope) : s ++ {} = s := by simp [append_def]

lemma append_assoc (s t u : Scope) : s ++ t ++ u = s ++ (t ++ u) := by simp [append_def]

@[simp] lemma all_nil {α : Type} (uses : α → Scope) : all uses [] = {} := rfl

@[simp] lemma all_cons {α : Type} (uses : α → Scope) (a : α) (as : List α) :
    all uses (a :: as) = uses a ++ all uses as := by
  simp [all, append_def]

lemma all_map {α β : Type} (uses : β → Scope) (f : α → β) (as : List α) :
    all uses (as.map f) = all (fun a => uses (f a)) as := by
  simp [all, List.flatMap_map]

lemma Unique.empty : Unique {} := ⟨List.nodup_nil, List.nodup_nil, List.nodup_nil⟩

lemma unique_append {s t : Scope} :
    (s ++ t).Unique ↔ s.Unique ∧ t.Unique ∧ s.names.Disjoint t.names ∧
      s.numbers.Disjoint t.numbers ∧ s.types.Disjoint t.types := by
  constructor
  · rintro ⟨h₁, h₂, h₃⟩
    obtain ⟨a₁, b₁, c₁⟩ := List.nodup_append'.1 h₁
    obtain ⟨a₂, b₂, c₂⟩ := List.nodup_append'.1 h₂
    obtain ⟨a₃, b₃, c₃⟩ := List.nodup_append'.1 h₃
    exact ⟨⟨a₁, a₂, a₃⟩, ⟨b₁, b₂, b₃⟩, c₁, c₂, c₃⟩
  · rintro ⟨⟨a₁, a₂, a₃⟩, ⟨b₁, b₂, b₃⟩, c₁, c₂, c₃⟩
    exact ⟨a₁.append b₁ c₁, a₂.append b₂ c₂, a₃.append b₃ c₃⟩

end Scope

/-! ### What elements use -/

namespace FieldRange

variable {r : FieldRange}

/-- The numbers that a range covers; one that cannot be listed covers none. -/
def covered (r : FieldRange) : List Int := r.numbers.toOption.getD []

lemma mem_covered {n : Int} : n ∈ r.covered ↔ r.Covers n := by
  unfold covered numbers Covers
  split
  · next low high hl hh =>
    simp only [hl, hh, Option.some.injEq, Except.toOption, Option.getD_some, List.mem_map,
      List.mem_range]
    constructor
    · rintro ⟨i, hi, rfl⟩
      exact ⟨low, high, rfl, rfl, by omega, by omega⟩
    · rintro ⟨_, _, rfl, rfl, h, h'⟩
      exact ⟨(n - low).toNat, by omega, by omega⟩
  · next h =>
    simp only [Except.toOption, Option.getD_none, List.not_mem_nil, false_iff]
    rintro ⟨low, high, hl, hh, -⟩
    exact h low high hl hh

/-- A range between whole numbers can be listed, and no other. -/
lemma numbers_eq (r : FieldRange) :
    r.numbers = if r.IsWhole then .ok r.covered else .error .realBound := by
  by_cases h : r.IsWhole
  · obtain ⟨low, hl⟩ := Option.isSome_iff_exists.1 h.1
    obtain ⟨high, hh⟩ := Option.isSome_iff_exists.1 h.2
    simp [h, covered, numbers, hl, hh, Except.toOption]
  · rw [if_neg h, numbers]
    split
    · next hl hh => exact absurd ⟨by simp [hl], by simp [hh]⟩ h
    · rfl

lemma allNumbers_eq (rs : List FieldRange) :
    allNumbers rs =
      if ∀ r ∈ rs, r.IsWhole then .ok (rs.flatMap covered) else .error .realBound := by
  induction rs with
  | nil => rfl
  | cons r rs ih =>
    simp only [allNumbers, numbers_eq, ih, List.forall_mem_cons]
    by_cases hr : r.IsWhole
    · by_cases hrs : ∀ r ∈ rs, r.IsWhole
      · rw [if_pos hr, if_pos hrs, if_pos ⟨hr, hrs⟩]
        rfl
      · rw [if_pos hr, if_neg hrs, if_neg fun h => hrs h.2]
        rfl
    · have hn : ¬ (r.IsWhole ∧ ∀ r ∈ rs, r.IsWhole) := fun h => hr h.1
      rw [if_neg hr, if_neg hn]
      rfl

end FieldRange

/-- A reservation states a name as often as it is listed, and each number once. -/
def Reservation.uses (r : Reservation) : Scope where
  names := r.names
  numbers := (r.numbers ++ r.ranges.flatMap FieldRange.covered).dedup

/-- The numbers of a reservation can be listed if its ranges are between whole numbers,
and not else. -/
lemma Reservation.reservedNumbers_eq (r : Reservation) :
    r.reservedNumbers = if ∀ range ∈ r.ranges, range.IsWhole then
      .ok (distinct (r.numbers ++ r.ranges.flatMap FieldRange.covered)) else .error .realBound := by
  rw [reservedNumbers, FieldRange.allNumbers_eq]
  split <;> rfl

def Field.uses (f : Field) : Scope := { names := [f.name], numbers := [f.number] }

def EnumValue.uses (v : EnumValue) : Scope := { names := [v.name], numbers := [v.number] }

def Method.uses (m : Method) : Scope := { names := [m.name] }

/-- A oneof uses its own name and what its members use. -/
def Member.uses : Member → Scope
  | .field f => f.uses
  | .map f => { names := [f.name], numbers := [f.number] }
  | .oneof o => { names := [o.name] } ++ Scope.all Field.uses o.members
  | .message m => { types := [m.name] }
  | .enum e => { types := [e.name] }

def Declaration.uses (d : Declaration) : Scope := { types := [d.typeName] }

/-! ### Scopes of declarations -/

def EnumDecl.scope (e : EnumDecl) : Scope :=
  Scope.all Reservation.uses e.reservations ++ Scope.all EnumValue.uses e.values

/-- What is used directly in a message. -/
def Message.scope (m : Message) : Scope :=
  Scope.all Reservation.uses m.reservations ++ Scope.all Member.uses m.blocks.flatten

def Member.otherScopes : Member → List Scope
  | .enum e => [e.scope]
  | .field _ | .map _ | .oneof _ | .message _ => []

/-- The scopes of a message and of everything nested in it. -/
def Message.scopes : Message → List Scope :=
  Message.collect (fun m => [m.scope]) Member.otherScopes

def Member.scopes : Member → List Scope := Member.collect (fun m => [m.scope]) Member.otherScopes

lemma Message.scopes_eq (m : Message) :
    m.scopes = m.scope :: m.blocks.flatten.flatMap Member.scopes :=
  Message.collect_eq _ _ m

def Service.scope (s : Service) : Scope := Scope.all Method.uses s.methods

def Extension.scope (e : Extension) : Scope := Scope.all Field.uses e.fields

def Declaration.scopes : Declaration → List Scope
  | .message m => m.scopes
  | .enum e => [e.scope]
  | .service s => [s.scope]
  | .extension e => [e.scope]

def File.scopes (f : File) : List Scope :=
  Scope.all Declaration.uses f.blocks.flatten :: f.blocks.flatten.flatMap Declaration.scopes

/-- The scopes of everything in a node. -/
def Node.scopes : Node → List Scope
  | .enum e => [e.scope]
  | .message m => m.scopes
  | .service s => [s.scope]
  | .extension e => [e.scope]
  | .file f => f.scopes
  | .bare | .option _ | .reservation _ | .imported _ | .field _ | .mapField _ | .oneof _
  | .enumValue _ | .method _ => []

end ProtoSchema
