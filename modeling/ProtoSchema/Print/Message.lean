import ProtoSchema.Print.Scope
import ProtoSchema.Schema.Message
import ProtoSchema.Usage.TypeScope

/-!
The text of messages.

A message has a scope for its fields, which the members of its oneofs share, and a scope for the
types nested directly in it.
-/

namespace ProtoSchema

open Print Usage

structure MemberScope where
  fields : FieldScope := {}
  types : TypeScope := {}

namespace MemberScope

def registerField (s : MemberScope) (f : FieldIdentity) : MemberScope × Option Conflict :=
  let r := s.fields.register f
  ({ s with fields := r.1 }, r.2)

def registerGroup (s : MemberScope) (name : String) (members : List FieldIdentity) :
    MemberScope × Option Conflict :=
  let r := s.fields.registerGroup name members
  ({ s with fields := r.1 }, r.2)

def registerType (s : MemberScope) (name : String) : MemberScope × Option Conflict :=
  let r := s.types.register name
  ({ s with types := r.1 }, r.2)

end MemberScope

/-- Registers a member with what it declares in the scope of its message. -/
def Member.register (s : MemberScope) (m : Member) : MemberScope × Option Rejection :=
  rejecting <| match m with
    | .field f => s.registerField f.identity
    | .map f => s.registerField f.identity
    | .oneof o => s.registerGroup o.name o.memberIdentities
    | .message m => s.registerType m.name
    | .enum e => s.registerType e.name

mutual

def Message.script : Message → Script
  | ⟨name, comment, options, reservations, blocks⟩ =>
    let reserved := reservedScript reservations
    .comment comment :: scope ("message " ++ name)
      (optionSection options ++ sectionFor reservations reserved.1 ++
        Member.sections ⟨reserved.2, { owner := some name }⟩ blocks)

def Member.script : Member → Script
  | .field f => f.script
  | .map f => f.script
  | .oneof o => o.script
  | .message m => Message.script m
  | .enum e => e.script

/-- The members of a block, and the scope they leave. -/
def Member.blockScript : MemberScope → List Member → Script × MemberScope
  | s, [] => ([], s)
  | s, m :: ms =>
    let r := m.register s
    let rest := Member.blockScript r.1 ms
    (guard r.2 ++ Member.script m ++ rest.1, rest.2)

/-- A section for each block. -/
def Member.sections : MemberScope → List (List Member) → List Script
  | _, [] => []
  | s, b :: bs =>
    let first := Member.blockScript s b
    first.1 :: Member.sections first.2 bs

end

end ProtoSchema
