import ProtoSchema.Node.Value

/-!
Expressions of a session: literals, variables, calls, and actions on what an expression gives.
-/

namespace ProtoSchema.Session

/-- What can be called by name. -/
inductive Callee where
  | inferType
  | entry | inferredEntry
  | range
  | imported
  | option | optionFor (target : OptionTarget)
  | reservation
  | field | repeatedField | optionalField | messageField | enumField
  | mapField | oneof
  | enumValue | enum | message | method | service | extension | file
  | checkValue | buildOptions | checkTargets
  | segments
  | equal
  deriving DecidableEq, Repr

/-- What a value can be asked to do. -/
inductive Action where
  | setComment
  | setValue | setEntries
  | addRanges | addRange
  | addOptions | addReservations | addFields | addValues
  | addMessages | addEnums | addServices | addExtensions | addImports | addMethods
  | setRepeated | setOptional | setTypeName
  | setRequest | setResponse | setPackage
  | build
  | print | write | check
  | imports | typeName | identity | groupName | memberIdentities
  | reservedNumbers | reservedNames
  | writtenName | literal | format
  | part | assign | capabilities
  | display | numbers
  deriving DecidableEq, Repr

inductive Expr where
  | constant (v : Value)
  /-- A whole number by its digits. -/
  | number (digits : String)
  /-- A member of an enumeration by its name. -/
  | member (enumeration : Enumeration) (given : Value)
  | list (items : List Expr)
  | tuple (items : List Expr)
  | reference (name : String)
  | call (callee : Callee) (args : List Expr)
  /-- A node put together from named parts. -/
  | assemble (kind : Kind) (names : List String) (parts : List Expr)
  | send (receiver : Expr) (action : Action) (args : List Expr)

end ProtoSchema.Session
