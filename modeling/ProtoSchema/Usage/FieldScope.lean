import ProtoSchema.Schema.Reservation
import ProtoSchema.Usage.Conflict
import Std.Data.ExtTreeMap
import Std.Data.ExtTreeSet

/-!
The field names and field numbers in use within one message, enum, service or extension.

Names and numbers are held apart, since a field may have no number. A reservation uses what it
reserves, and what is reserved is remembered beside, so that a conflict with it is reported as such.
Registering several entries stops at the first conflict and keeps what was registered before it.
-/

namespace ProtoSchema.Usage

/-- Why something is not registered. -/
inductive Rejection where
  | conflict (c : Conflict)
  /-- The numbers of a reservation cannot be listed. -/
  | unlisted (e : ListingError)
  deriving DecidableEq, Repr

/-- The outcome of a registration that nothing but a conflict stops. -/
def rejecting {σ : Type} (r : σ × Option Conflict) : σ × Option Rejection :=
  (r.1, r.2.map .conflict)

structure FieldScope where
  /-- The names in use, each with the number of its field if it has one. -/
  names : Std.ExtTreeMap String (Option Int) := ∅
  /-- The numbers in use, each with the name of its field if it has one. -/
  numbers : Std.ExtTreeMap Int (Option String) := ∅
  reservedNames : Std.ExtTreeSet String := ∅
  reservedNumbers : Std.ExtTreeSet Int := ∅

namespace FieldScope

/-- The scope that results from a registration, and the conflict that stopped it. -/
abbrev Outcome := FieldScope × Option Conflict

/-! ### Conflicts -/

def nameConflict? (s : FieldScope) (f : FieldIdentity) : Option Conflict :=
  match s.names[f.name]? with
  | none => none
  | some usedBy =>
    if f.name ∈ s.reservedNames then some (.reservedName f.name)
    else match usedBy with
      | none => some (.usedName f.name)
      | some number => some (.usedNumberedName f number)

def numberConflict? (s : FieldScope) (number : Int) : Option Conflict :=
  match s.numbers[number]? with
  | none => none
  | some usedBy =>
    if number ∈ s.reservedNumbers then some (.reservedNumber number)
    else some (.usedNumber number usedBy)

/-- The first conflict of a field with the scope; the name is looked at before the number. -/
def conflict? (s : FieldScope) (f : FieldIdentity) : Option Conflict :=
  match s.nameConflict? f with
  | some c => some c
  | none => f.number.bind s.numberConflict?

/-! ### Registrations -/

def recordField (s : FieldScope) (f : FieldIdentity) : FieldScope :=
  { s with
    names := s.names.insert f.name f.number
    numbers := match f.number with
      | none => s.numbers
      | some n => s.numbers.insert n (some f.name) }

def recordNumber (s : FieldScope) (n : Int) : FieldScope :=
  { s with numbers := s.numbers.insert n none, reservedNumbers := s.reservedNumbers.insert n }

def recordName (s : FieldScope) (name : String) : FieldScope :=
  { s with names := s.names.insert name none, reservedNames := s.reservedNames.insert name }

def register (s : FieldScope) (f : FieldIdentity) : Outcome :=
  match s.conflict? f with
  | some c => (s, some c)
  | none => (s.recordField f, none)

def registerAll (s : FieldScope) : List FieldIdentity → Outcome
  | [] => (s, none)
  | f :: fs =>
    match s.register f with
    | (s, some c) => (s, some c)
    | (s, none) => s.registerAll fs

/-- A group uses its own name, and then what its members use. -/
def registerGroup (s : FieldScope) (name : String) (members : List FieldIdentity) : Outcome :=
  s.registerAll (⟨name, none⟩ :: members)

def reserveNumbers (s : FieldScope) : List Int → Outcome
  | [] => (s, none)
  | n :: ns =>
    match s.numberConflict? n with
    | some c => (s, some c)
    | none => (s.recordNumber n).reserveNumbers ns

def reserveNames (s : FieldScope) : List String → Outcome
  | [] => (s, none)
  | n :: ns =>
    match s.nameConflict? ⟨n, none⟩ with
    | some c => (s, some c)
    | none => (s.recordName n).reserveNames ns

/-- Reserves numbers, and then names. -/
def reserve (s : FieldScope) (numbers : List Int) (names : List String) : Outcome :=
  match s.reserveNumbers numbers with
  | (s, some c) => (s, some c)
  | (s, none) => s.reserveNames names

/-- Lists the numbers of a reservation, and then reserves them and its names. -/
def registerReservation (s : FieldScope) (r : Reservation) : FieldScope × Option Rejection :=
  match r.reservedNumbers with
  | .error e => (s, some (.unlisted e))
  | .ok numbers => rejecting (s.reserve numbers r.reservedNames)

/-! ### What a scope holds -/

theorem nameConflict?_eq_none {s : FieldScope} {f : FieldIdentity} :
    s.nameConflict? f = none ↔ s.names[f.name]? = none := by
  unfold nameConflict?
  split
  · next h => simp [h]
  · next h => simp only [h]; split <;> (try split) <;> simp

theorem numberConflict?_eq_none {s : FieldScope} {n : Int} :
    s.numberConflict? n = none ↔ s.numbers[n]? = none := by
  unfold numberConflict?
  split
  · next h => simp [h]
  · next h => simp only [h]; split <;> simp

theorem conflict?_eq_none {s : FieldScope} {f : FieldIdentity} :
    s.conflict? f = none ↔
      s.names[f.name]? = none ∧ ∀ n, f.number = some n → s.numbers[n]? = none := by
  unfold conflict?
  cases hn : s.nameConflict? f with
  | some c =>
    have h : s.names[f.name]? ≠ none := fun h => by simp [nameConflict?_eq_none.2 h] at hn
    simp [h]
  | none => cases f.number <;> simp [nameConflict?_eq_none.1 hn, numberConflict?_eq_none]

/-! ### What a registration adds -/

theorem names_recordField (s : FieldScope) (f : FieldIdentity) (name : String) :
    (s.recordField f).names[name]? = if f.name = name then some f.number else s.names[name]? := by
  simp [recordField, Std.ExtTreeMap.getElem?_insert]

theorem numbers_recordField (s : FieldScope) (f : FieldIdentity) (n : Int) :
    (s.recordField f).numbers[n]? =
      if f.number = some n then some (some f.name) else s.numbers[n]? := by
  cases h : f.number with
  | none => simp [recordField, h]
  | some m => simp [recordField, h, Std.ExtTreeMap.getElem?_insert]

theorem numbers_recordNumber (s : FieldScope) (m n : Int) :
    (s.recordNumber m).numbers[n]? = if m = n then some none else s.numbers[n]? := by
  simp [recordNumber, Std.ExtTreeMap.getElem?_insert]

theorem names_recordName (s : FieldScope) (taken name : String) :
    (s.recordName taken).names[name]? = if taken = name then some none else s.names[name]? := by
  simp [recordName, Std.ExtTreeMap.getElem?_insert]

@[simp] theorem names_recordNumber (s : FieldScope) (n : Int) :
    (s.recordNumber n).names = s.names := rfl

@[simp] theorem numbers_recordName (s : FieldScope) (name : String) :
    (s.recordName name).numbers = s.numbers := rfl

theorem mem_reservedNumbers_recordNumber (s : FieldScope) (m n : Int) :
    n ∈ (s.recordNumber m).reservedNumbers ↔ m = n ∨ n ∈ s.reservedNumbers := by
  simp [recordNumber]

theorem mem_reservedNames_recordName (s : FieldScope) (taken name : String) :
    name ∈ (s.recordName taken).reservedNames ↔ taken = name ∨ name ∈ s.reservedNames := by
  simp [recordName]

end FieldScope

end ProtoSchema.Usage
