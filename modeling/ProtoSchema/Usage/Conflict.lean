/-!
Second uses of a name or a number within one scope, and how they are reported.
-/

namespace ProtoSchema.Usage

/-- What a field is known by in its scope. Methods and groups have no number. -/
structure FieldIdentity where
  name : String
  number : Option Int := none
  deriving DecidableEq, Repr

inductive Conflict where
  /-- A field takes a reserved name. -/
  | reservedName (name : String)
  /-- A name was used before, by something without a number. -/
  | usedName (name : String)
  /-- The name of `field` was used before, by the field numbered `usedBy`. -/
  | usedNumberedName (field : FieldIdentity) (usedBy : Int)
  /-- A field takes a reserved number. -/
  | reservedNumber (number : Int)
  /-- A number was used before, by the field called `usedBy` if it has a name. -/
  | usedNumber (number : Int) (usedBy : Option String)
  /-- A type name was used before; `scope` names the declaration around it, if there is one. -/
  | usedTypeName (name : String) (scope : Option String)
  deriving DecidableEq, Repr

private def quoted (name : String) : String := "'" ++ name ++ "'"

/-- How a conflict is reported, as long as none of its numbers has too many digits. -/
def Conflict.message : Conflict → String
  | .reservedName name => "field name " ++ quoted name ++ " is reserved and cannot be used"
  | .usedName name => "field name " ++ quoted name ++ " is not unique"
  | .usedNumberedName ⟨name, none⟩ usedBy =>
    "field name " ++ quoted name ++ " not unique, used by field number " ++ toString usedBy
  | .usedNumberedName ⟨name, some number⟩ usedBy =>
    "field name " ++ quoted name ++ " (number=" ++ toString number ++
      ") not unique, used by field number " ++ toString usedBy
  | .reservedNumber number =>
    "field number " ++ toString number ++ " is reserved and cannot be used"
  | .usedNumber number usedBy =>
    "field number " ++ toString number ++ " already used by field named " ++
      quoted (usedBy.getD "None")
  | .usedTypeName name none => quoted name ++ " name already used"
  | .usedTypeName name (some scope) => quoted name ++ " name already used in " ++ quoted scope

end ProtoSchema.Usage
