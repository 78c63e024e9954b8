import ProtoSchema.Build.Read

/-!
Reservations, made from parts, and their drafts.
-/

namespace ProtoSchema

open Build
open Number (Quantity)

namespace Reservation

/-- A truth value among numbers. -/
def truthValue? (numbers : List Value) : Option Refusal :=
  (numbers.findSome? Value.bool?).map .truthValueReserved

def refusal? (r : Reservation) : Option Refusal :=
  if !r.names.isEmpty && !(r.numbers.isEmpty && r.ranges.isEmpty) then some .namesAndNumbers
  else if r.names.isEmpty && r.numbers.isEmpty && r.ranges.isEmpty then some .nothingReserved
  else if r.numbers.any (· ≤ 0) then some .reservedNotPositive
  else none

def ofParts (ps : Parts) : Checked Reservation :=
  (Reservation.mk <$> ps.optional "field_names" [] Read.texts
    <*> ps.optional "field_numbers" [] (Read.guarded truthValue? Read.ints)
    <*> ps.optional "field_ranges" [] (Read.elements Read.range)
    <*> ps.optional "comment" [] Read.texts).verify refusal?

end Reservation

def Build.Read.reservations : Value → Checked (List Reservation) :=
  Read.elements <| Read.node .reservation fun
    | .reservation r => some r
    | _ => none

/-! ### Drafts -/

namespace Build

structure ReservationDraft where
  names : List String := []
  numbers : List Quantity := []
  ranges : List Value := []
  comment : List Value := []

namespace ReservationDraft

/-- A reservation of names or of numbers, each taken once. -/
def ofItems (items : List Value) : Except Refusal ReservationDraft :=
  let names := items.filterMap Value.text?
  let others := items.filter fun v => v.text?.isNone
  let numbers := others.filterMap Value.quantity?
  match Reservation.truthValue? others with
  | some r => .error r
  | none =>
    if !names.isEmpty && !others.isEmpty then .error .namesAndNumbers
    else if numbers.any fun n => n.le (.whole 0) then .error .reservedNotPositive
    else .ok { names := distinct names, numbers := distinctQuantities numbers }

def addRanges (d : ReservationDraft) (ranges : List Value) : Except Refusal ReservationDraft :=
  if d.names.isEmpty then .ok { d with ranges := d.ranges ++ ranges } else .error .rangesWithNames

def build (d : ReservationDraft) : Except BuildError Node :=
  Checked.toNode .reservation .reservation <| Reservation.ofParts
    [("field_names", .texts d.names), ("field_numbers", .tuple (d.numbers.map .ofQuantity)),
      ("field_ranges", .tuple d.ranges), ("comment", .tuple d.comment)]

end ReservationDraft

end Build

end ProtoSchema
