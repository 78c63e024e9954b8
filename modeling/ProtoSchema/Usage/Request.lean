import ProtoSchema.Usage.FieldScope

/-!
Requests to a scope of fields, one after another.

A request that meets a conflict keeps what it registered before it, and the next one goes
on from there.
-/

namespace ProtoSchema.Usage

/-- What is registered at once. -/
inductive Registration where
  | field (f : FieldIdentity)
  | group (name : String) (members : List FieldIdentity)
  | reservation (numbers : List Int) (names : List String)
  deriving Repr

inductive Request where
  | register (r : Registration)
  /-- Looks for a conflict and registers nothing. -/
  | ensureUnused (f : FieldIdentity)
  | reset
  deriving Repr

namespace FieldScope

def take (s : FieldScope) : Registration → Outcome
  | .field f => s.register f
  | .group name members => s.registerGroup name members
  | .reservation numbers names => s.reserve numbers names

/-- Registers up to the first conflict. -/
def takeAll (s : FieldScope) : List Registration → Outcome
  | [] => (s, none)
  | r :: rs =>
    match s.take r with
    | (s, some c) => (s, some c)
    | (s, none) => s.takeAll rs

def perform (s : FieldScope) : Request → Outcome
  | .register r => s.take r
  | .ensureUnused f => (s, s.conflict? f)
  | .reset => ({}, none)

/-- The scope after requests, whether they met conflicts or not. -/
def after (s : FieldScope) (rs : List Request) : FieldScope :=
  rs.foldl (fun s r => (s.perform r).1) s

end FieldScope

end ProtoSchema.Usage
