import ProtoSchema.Number.Quantity
import Std.Data.ExtTreeSet

/-!
Reserved field numbers and names.

A range runs from its low number to its high number, both included. A reservation states each number
it reserves once, however often its numbers and ranges cover it. A range may be given between
floating point numbers; it is written as it is given then, but its numbers cannot be listed.
-/

namespace ProtoSchema

open Number (Quantity)

/-- Two numbers in order. They need not be whole numbers, but listing the numbers of a range is an
error if one of them is given as a floating point number. -/
structure FieldRange where
  low : Quantity
  high : Quantity
  low_pos : low.le (.whole 0) = false
  low_lt_high : high.le low = false
  deriving Repr

/-- Why the numbers of a range cannot be listed. -/
inductive ListingError where
  /-- A bound is given as a floating point number. -/
  | realBound
  deriving DecidableEq, Repr

def ListingError.message : ListingError → String
  | .realBound => "'float' object cannot be interpreted as an integer"

namespace FieldRange

instance : BEq FieldRange := ⟨fun r s => r.low.same s.low && r.high.same s.high⟩

/-- A number within a range between whole numbers. -/
def Covers (r : FieldRange) (n : Int) : Prop :=
  ∃ low high, r.low.whole? = some low ∧ r.high.whole? = some high ∧ low ≤ n ∧ n ≤ high

/-- Both bounds are given as whole numbers. -/
def IsWhole (r : FieldRange) : Prop := r.low.whole?.isSome ∧ r.high.whole?.isSome

instance (r : FieldRange) : Decidable r.IsWhole := inferInstanceAs (Decidable (_ ∧ _))

/-- The numbers of the range in order. -/
def numbers (r : FieldRange) : Except ListingError (List Int) :=
  match r.low.whole?, r.high.whole? with
  | some low, some high =>
    .ok ((List.range (high - low + 1).toNat).map fun (i : Nat) => low + i)
  | _, _ => .error .realBound

/-- The numbers of several ranges, up to the first that cannot be listed. -/
def allNumbers : List FieldRange → Except ListingError (List Int)
  | [] => .ok []
  | r :: rs => do return (← r.numbers) ++ (← allNumbers rs)

def text (r : FieldRange) : String := r.low.text ++ " to " ++ r.high.text

/-- The bounds that are given as whole numbers. -/
def wholeBounds (r : FieldRange) : List Int := r.low.whole?.toList ++ r.high.whole?.toList

end FieldRange

/-- Why two numbers make no range. -/
inductive RangeError where
  | lowNotPositive
  | highNotPositive
  | notIncreasing
  deriving DecidableEq, Repr

def RangeError.message : RangeError → String
  | .lowNotPositive => "low number cannot be negative"
  | .highNotPositive => "high number cannot be negative"
  | .notIncreasing => "high value must be higher than low value"

/-- What is wrong with the low number of a range, whatever the high one is. -/
def FieldRange.lowError? (low : Quantity) : Option RangeError :=
  if low.le (.whole 0) then some .lowNotPositive else none

def FieldRange.of? (low high : Quantity) : Except RangeError FieldRange :=
  if hl : low.le (.whole 0) then .error .lowNotPositive
  else if high.le (.whole 0) then .error .highNotPositive
  else if hh : high.le low then .error .notIncreasing
  else .ok ⟨low, high, by simpa using hl, by simpa using hh⟩

/-! ### Repeated elements -/

/-- The first of all elements that are the same, in order. -/
def firstOfSame {α : Type} (same : α → α → Bool) : List α → List α
  | [] => []
  | a :: as => a :: (firstOfSame same as).filter fun b => !same a b

/-- The elements that are not seen yet, each where it occurs first, behind those found before,
newest first. -/
def distinctFrom {α : Type} [Ord α] [Std.TransOrd α] (found : List α) (seen : Std.ExtTreeSet α) :
    List α → List α
  | [] => found.reverse
  | a :: as =>
    if a ∈ seen then distinctFrom found seen as else distinctFrom (a :: found) (seen.insert a) as

/-- The first occurrence of each element, in order. -/
def distinct {α : Type} [Ord α] [Std.TransOrd α] (as : List α) : List α :=
  distinctFrom [] ∅ as

theorem mem_distinctFrom {α : Type} [Ord α] [Std.TransOrd α] [Std.LawfulEqOrd α]
    {found : List α} {seen : Std.ExtTreeSet α} {as : List α} {a : α} :
    a ∈ distinctFrom found seen as ↔ a ∈ found ∨ (a ∈ as ∧ a ∉ seen) := by
  induction as generalizing found seen with
  | nil => simp [distinctFrom]
  | cons b bs ih =>
    by_cases hb : b ∈ seen
    · rw [distinctFrom, if_pos hb, ih]
      grind
    · rw [distinctFrom, if_neg hb, List.mem_cons, ih]
      grind

theorem nodup_distinctFrom {α : Type} [Ord α] [Std.TransOrd α] [Std.LawfulEqOrd α]
    (found : List α) (seen : Std.ExtTreeSet α) (as : List α) (hf : found.Nodup)
    (hs : ∀ a ∈ found, a ∈ seen) : (distinctFrom found seen as).Nodup := by
  induction as generalizing found seen with
  | nil => exact List.pairwise_reverse.2 (hf.imp Ne.symm)
  | cons b bs ih =>
    by_cases hb : b ∈ seen
    · rw [distinctFrom, if_pos hb]
      exact ih found seen hf hs
    · rw [distinctFrom, if_neg hb]
      refine ih (b :: found) (seen.insert b) ?_ ?_
      · exact List.nodup_cons.2 ⟨fun h => hb (hs b h), hf⟩
      · grind

@[simp] theorem mem_distinct {α : Type} [Ord α] [Std.TransOrd α] [Std.LawfulEqOrd α]
    {as : List α} {a : α} : a ∈ distinct as ↔ a ∈ as := by
  simp [distinct, mem_distinctFrom]

theorem nodup_distinct {α : Type} [Ord α] [Std.TransOrd α] [Std.LawfulEqOrd α] (as : List α) :
    (distinct as).Nodup :=
  nodup_distinctFrom [] ∅ as List.nodup_nil (by simp)

theorem distinctFrom_eq {α : Type} [DecidableEq α] [Ord α] [Std.TransOrd α] [Std.LawfulEqOrd α]
    (found : List α) (seen : Std.ExtTreeSet α) (as : List α) :
    distinctFrom found seen as =
      found.reverse ++ (firstOfSame (· == ·) as).filter fun a => decide (a ∉ seen) := by
  induction as generalizing found seen with
  | nil => simp [distinctFrom, firstOfSame]
  | cons b bs ih =>
    by_cases hb : b ∈ seen
    · rw [distinctFrom, if_pos hb, ih]
      simp only [firstOfSame, List.filter_cons, hb, not_true_eq_false, decide_false,
        Bool.false_eq_true, if_false, List.filter_filter]
      congr 1
      refine List.filter_congr fun a _ => ?_
      by_cases hab : b = a <;> grind
    · rw [distinctFrom, if_neg hb, ih]
      simp only [firstOfSame, List.filter_cons, hb, not_false_eq_true, decide_true, if_true,
        List.filter_filter, List.reverse_cons, List.append_assoc, List.singleton_append]
      congr 2
      refine List.filter_congr fun a _ => ?_
      grind

/-- The first of all elements that are the same; those that have an order are found by look-up. -/
theorem distinct_eq_firstOfSame {α : Type} [DecidableEq α] [Ord α] [Std.TransOrd α]
    [Std.LawfulEqOrd α] (as : List α) : distinct as = firstOfSame (· == ·) as := by
  rw [distinct, distinctFrom_eq]
  simp

/-- The whole numbers that quantities are given as, if all of them are. -/
def allWhole? : List Quantity → Option (List Int)
  | [] => some []
  | .whole n :: qs => (allWhole? qs).map (n :: ·)
  | _ => none

/-- The first of all quantities that are the same, in order. -/
def distinctQuantities (qs : List Quantity) : List Quantity :=
  match allWhole? qs with
  | some ns => (distinct ns).map .whole
  | none => firstOfSame Quantity.same qs

theorem eq_map_of_allWhole? {qs : List Quantity} {ns : List Int} (h : allWhole? qs = some ns) :
    qs = ns.map .whole := by
  induction qs generalizing ns with
  | nil => simp_all [allWhole?]
  | cons q qs ih =>
    cases q with
    | whole n =>
      simp only [allWhole?, Option.map_eq_some_iff] at h
      obtain ⟨ms, hms, rfl⟩ := h
      simp [ih hms]
    | truth b => simp [allWhole?] at h
    | real x => simp [allWhole?] at h

theorem firstOfSame_whole (ns : List Int) :
    firstOfSame Quantity.same (ns.map .whole) = (firstOfSame (· == ·) ns).map .whole := by
  induction ns with
  | nil => rfl
  | cons n ns ih =>
    simp only [List.map_cons, firstOfSame, ih, List.filter_map]
    congr 2

theorem distinctQuantities_eq (qs : List Quantity) :
    distinctQuantities qs = firstOfSame Quantity.same qs := by
  unfold distinctQuantities
  split
  · next ns h => rw [eq_map_of_allWhole? h, firstOfSame_whole, distinct_eq_firstOfSame]
  · rfl

structure Reservation where
  names : List String := []
  numbers : List Int := []
  ranges : List FieldRange := []
  comment : List String := []
  deriving BEq, Repr

namespace Reservation

/-- Every reserved number once, ranges spelled out. -/
def reservedNumbers (r : Reservation) : Except ListingError (List Int) :=
  (FieldRange.allNumbers r.ranges).map fun ns => distinct (r.numbers ++ ns)

def reservedNames (r : Reservation) : List String := r.names

end Reservation

end ProtoSchema
