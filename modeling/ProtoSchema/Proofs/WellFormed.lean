import ProtoSchema.Proofs.Tree
import ProtoSchema.Node.Basic

/-!
What the construction of a declaration guarantees.

A well formed declaration passes the checks of its own parts, and so do all declarations inside of
it: values go with their types, options are attached where they are meant for, and numbers and type
names are as the kind of field asks for.
-/

namespace ProtoSchema

/-! ### Options -/

/-- The value goes with its type. -/
def OptionEntry.WellFormed (e : OptionEntry) : Prop := e.type.mismatch? e.value = none

def OptionValue.WellFormed : OptionValue → Prop
  | .literal type value => type.mismatch? value = none
  | .entries es => ∀ e ∈ es, e.WellFormed

/-- An option that may be attached to a construct. -/
structure OptionDecl.WellFormed (target : OptionTarget) (o : OptionDecl) : Prop where
  target : o.target = target
  comment : o.target.isInline → o.comment = []
  value : o.value.WellFormed

/-! ### Declarations on a line -/

structure Field.WellFormed (f : Field) : Prop where
  number : 0 < f.number
  typeName : f.typeName.isSome = f.type.isUserDefined
  options : ∀ o ∈ f.options, o.WellFormed .field

structure MapField.WellFormed (f : MapField) : Prop where
  keyType : f.keyType.isMapKey
  number : 0 < f.number
  typeName : f.typeName.isSome = f.valueType.isUserDefined
  options : ∀ o ∈ f.options, o.WellFormed .field

structure EnumValue.WellFormed (v : EnumValue) : Prop where
  number : 0 ≤ v.number
  options : ∀ o ∈ v.options, o.WellFormed .enumValue

structure Reservation.WellFormed (r : Reservation) : Prop where
  kind : r.names = [] ∨ r.numbers = [] ∧ r.ranges = []
  some : r.names ≠ [] ∨ r.numbers ≠ [] ∨ r.ranges ≠ []
  numbers : ∀ n ∈ r.numbers, 0 < n

def Import.WellFormed (i : Import) : Prop := ".proto".toList <:+ i.path.toList

/-! ### Declarations with a body -/

structure Oneof.WellFormed (o : Oneof) : Prop where
  options : ∀ p ∈ o.options, p.WellFormed .oneof
  members : ∀ f ∈ o.members, f.WellFormed ∧ f.modifier = .singular

structure EnumDecl.WellFormed (e : EnumDecl) : Prop where
  options : ∀ o ∈ e.options, o.WellFormed .enum
  reservations : ∀ r ∈ e.reservations, r.WellFormed
  values : ∀ v ∈ e.values, v.WellFormed

structure Method.WellFormed (m : Method) : Prop where
  options : ∀ o ∈ m.options, o.WellFormed .method

structure Service.WellFormed (s : Service) : Prop where
  options : ∀ o ∈ s.options, o.WellFormed .service
  methods : ∀ m ∈ s.methods, m.WellFormed

def Extension.WellFormed (e : Extension) : Prop := ∀ f ∈ e.fields, f.WellFormed

mutual

inductive Message.WellFormed : Message → Prop
  | mk {m : Message} (options : ∀ o ∈ m.options, o.WellFormed .message)
      (reservations : ∀ r ∈ m.reservations, r.WellFormed)
      (members : ∀ x ∈ m.blocks.flatten, Member.WellFormed x) : Message.WellFormed m

inductive Member.WellFormed : Member → Prop
  | field {f : Field} (h : f.WellFormed) : Member.WellFormed (.field f)
  | map {f : MapField} (h : f.WellFormed) : Member.WellFormed (.map f)
  | oneof {o : Oneof} (h : o.WellFormed) : Member.WellFormed (.oneof o)
  | message {m : Message} (h : Message.WellFormed m) : Member.WellFormed (.message m)
  | enum {e : EnumDecl} (h : e.WellFormed) : Member.WellFormed (.enum e)

end

def Declaration.WellFormed : Declaration → Prop
  | .message m => m.WellFormed
  | .enum e => e.WellFormed
  | .service s => s.WellFormed
  | .extension e => e.WellFormed

structure File.WellFormed (f : File) : Prop where
  imports : ∀ i ∈ f.explicitImports, i.WellFormed
  options : ∀ o ∈ f.options, o.WellFormed .file
  declarations : ∀ d ∈ f.blocks.flatten, d.WellFormed

def Node.WellFormed : Node → Prop
  | .bare => True
  | .option o => o.WellFormed o.target
  | .reservation r => r.WellFormed
  | .imported i => i.WellFormed
  | .field f => f.WellFormed
  | .mapField f => f.WellFormed
  | .oneof o => o.WellFormed
  | .enumValue v => v.WellFormed
  | .enum e => e.WellFormed
  | .message m => m.WellFormed
  | .method m => m.WellFormed
  | .service s => s.WellFormed
  | .extension e => e.WellFormed
  | .file f => f.WellFormed

namespace Message.WellFormed

variable {m : Message}

lemma options (h : m.WellFormed) : ∀ o ∈ m.options, o.WellFormed .message := by
  cases h with
  | mk options reservations members => exact options

lemma reservations (h : m.WellFormed) : ∀ r ∈ m.reservations, r.WellFormed := by
  cases h with
  | mk options reservations members => exact reservations

lemma members (h : m.WellFormed) : ∀ x ∈ m.blocks.flatten, Member.WellFormed x := by
  cases h with
  | mk options reservations members => exact members

end Message.WellFormed

/-! ### The values of a tree -/

/-- A value with the type it is written as. -/
abbrev TypedValue := FieldType × Scalar

def OptionDecl.typedValues (o : OptionDecl) : List TypedValue :=
  match o.value with
  | .literal type value => [(type, value)]
  | .entries es => es.map fun e => (e.type, e.value)

/-- The values of several options. -/
def valuesOf (options : List OptionDecl) : List TypedValue := options.flatMap OptionDecl.typedValues

def Oneof.typedValues (o : Oneof) : List TypedValue :=
  valuesOf o.options ++ o.members.flatMap fun f => valuesOf f.options

def EnumDecl.typedValues (e : EnumDecl) : List TypedValue :=
  valuesOf e.options ++ e.values.flatMap fun v => valuesOf v.options

def Service.typedValues (s : Service) : List TypedValue :=
  valuesOf s.options ++ s.methods.flatMap fun m => valuesOf m.options

def Extension.typedValues (e : Extension) : List TypedValue :=
  e.fields.flatMap fun f => valuesOf f.options

/-- The values of a member that is no message. -/
def Member.otherValues : Member → List TypedValue
  | .field f => valuesOf f.options
  | .map f => valuesOf f.options
  | .oneof o => o.typedValues
  | .enum e => e.typedValues
  | .message _ => []

def Member.typedValues : Member → List TypedValue :=
  Member.collect (fun m => valuesOf m.options) Member.otherValues

def Message.typedValues : Message → List TypedValue :=
  Message.collect (fun m => valuesOf m.options) Member.otherValues

lemma Message.typedValues_eq (m : Message) :
    m.typedValues = valuesOf m.options ++ m.blocks.flatten.flatMap Member.typedValues :=
  Message.collect_eq _ _ m

def Declaration.typedValues : Declaration → List TypedValue
  | .message m => m.typedValues
  | .enum e => e.typedValues
  | .service s => s.typedValues
  | .extension e => e.typedValues

def File.typedValues (f : File) : List TypedValue :=
  valuesOf f.options ++ f.blocks.flatten.flatMap Declaration.typedValues

/-- All values anywhere in a node. -/
def Node.typedValues : Node → List TypedValue
  | .bare | .reservation _ | .imported _ => []
  | .option o => o.typedValues
  | .field f => valuesOf f.options
  | .mapField f => valuesOf f.options
  | .oneof o => o.typedValues
  | .enumValue v => valuesOf v.options
  | .enum e => e.typedValues
  | .message m => m.typedValues
  | .method m => valuesOf m.options
  | .service s => s.typedValues
  | .extension e => e.typedValues
  | .file f => f.typedValues

/-- A whole number that no floating point number comes near, where one is to be written. -/
def TooLarge (v : TypedValue) : Prop :=
  v.1.isFloating ∧ ∃ n, v.2 = .int n ∧ Number.Binary64.ofInt? n = none

/-! ### The numbers of a tree -/

def Oneof.writtenNumbers (o : Oneof) : List Int := o.members.flatMap fun f => [f.number]

def EnumDecl.writtenNumbers (e : EnumDecl) : List Int :=
  e.reservations.flatMap Reservation.writtenNumbers ++ e.values.flatMap fun v => [v.number]

def Extension.writtenNumbers (e : Extension) : List Int := e.fields.flatMap fun f => [f.number]

/-- The numbers of a member that is no message. -/
def Member.otherNumbers : Member → List Int
  | .field f => [f.number]
  | .map f => [f.number]
  | .oneof o => o.writtenNumbers
  | .enum e => e.writtenNumbers
  | .message _ => []

def Member.writtenNumbers : Member → List Int :=
  Member.collect (fun m => m.reservations.flatMap Reservation.writtenNumbers) Member.otherNumbers

def Message.writtenNumbers : Message → List Int :=
  Message.collect (fun m => m.reservations.flatMap Reservation.writtenNumbers) Member.otherNumbers

lemma Message.writtenNumbers_eq (m : Message) :
    m.writtenNumbers = m.reservations.flatMap Reservation.writtenNumbers ++
      m.blocks.flatten.flatMap Member.writtenNumbers :=
  Message.collect_eq _ _ m

def Declaration.writtenNumbers : Declaration → List Int
  | .message m => m.writtenNumbers
  | .enum e => e.writtenNumbers
  | .service _ => []
  | .extension e => e.writtenNumbers

def File.writtenNumbers (f : File) : List Int := f.blocks.flatten.flatMap Declaration.writtenNumbers

/-- All whole numbers of fields, enum values and reservations anywhere in a node, the bounds of
ranges among them. -/
def Node.writtenNumbers : Node → List Int
  | .bare | .option _ | .imported _ | .method _ | .service _ => []
  | .reservation r => r.writtenNumbers
  | .field f => [f.number]
  | .mapField f => [f.number]
  | .oneof o => o.writtenNumbers
  | .enumValue v => [v.number]
  | .enum e => e.writtenNumbers
  | .message m => m.writtenNumbers
  | .extension e => e.writtenNumbers
  | .file f => f.writtenNumbers

/-- Values and numbers that have a text: no whole number is too large for a floating point literal,
and none has too many digits. -/
structure Writable (values : List TypedValue) (numbers : List Int) : Prop where
  values : ∀ v ∈ values, ¬ TooLarge v
  numbers : ∀ n ∈ numbers, ¬ Number.tooLong n

namespace Writable

variable {values more : List TypedValue} {numbers others : List Int}

lemma append (h : Writable (values ++ more) (numbers ++ others)) :
    Writable values numbers ∧ Writable more others := by
  obtain ⟨hv, hn⟩ := h
  rw [List.forall_mem_append] at hv hn
  exact ⟨⟨hv.1, hn.1⟩, hv.2, hn.2⟩

lemma without_values (h : Writable values numbers) : Writable [] numbers := ⟨by simp, h.numbers⟩

lemma of_mem {α : Type} {typed : α → List TypedValue} {written : α → List Int} {as : List α} {a : α}
    (h : Writable (as.flatMap typed) (as.flatMap written)) (ha : a ∈ as) :
    Writable (typed a) (written a) :=
  ⟨fun v hv => h.values v (List.mem_flatMap.2 ⟨a, ha, hv⟩),
    fun n hn => h.numbers n (List.mem_flatMap.2 ⟨a, ha, hn⟩)⟩

end Writable

/-! ### The ranges of a tree -/

def Member.otherRanges : Member → List FieldRange
  | .enum e => e.reservations.flatMap Reservation.ranges
  | .field _ | .map _ | .oneof _ | .message _ => []

def Member.listedRanges : Member → List FieldRange :=
  Member.collect (fun m => m.reservations.flatMap Reservation.ranges) Member.otherRanges

def Message.listedRanges : Message → List FieldRange :=
  Message.collect (fun m => m.reservations.flatMap Reservation.ranges) Member.otherRanges

lemma Message.listedRanges_eq (m : Message) :
    m.listedRanges = m.reservations.flatMap Reservation.ranges ++
      m.blocks.flatten.flatMap Member.listedRanges :=
  Message.collect_eq _ _ m

def Declaration.listedRanges : Declaration → List FieldRange
  | .message m => m.listedRanges
  | .enum e => e.reservations.flatMap Reservation.ranges
  | .service _ | .extension _ => []

def File.listedRanges (f : File) : List FieldRange :=
  f.blocks.flatten.flatMap Declaration.listedRanges

/-- The ranges in a node that are registered with a scope of it. -/
def Node.listedRanges : Node → List FieldRange
  | .enum e => e.reservations.flatMap Reservation.ranges
  | .message m => m.listedRanges
  | .file f => f.listedRanges
  | .bare | .option _ | .reservation _ | .imported _ | .field _ | .mapField _ | .oneof _
  | .enumValue _ | .method _ | .service _ | .extension _ => []

/-! ### A message for examples -/

namespace Message

/-- A message in which a member of a oneof takes the number. -/
def sample (number : Int) : Message where
  name := "Track"
  comment := ["A piece of music"]
  options := [{ target := .message, name := "deprecated", value := .literal .bool (.bool true) }]
  reservations := [{ numbers := [2, 3] }]
  blocks := [[.field { type := .string, name := "title", number := 1 }],
    [.oneof { name := "source", members := [{ type := .string, name := "path", number }] }]]

lemma sample_wellFormed {number : Int} (h : 0 < number) : (sample number).WellFormed := by
  have ho : OptionDecl.WellFormed .message
      { target := .message, name := "deprecated", value := .literal .bool (.bool true) } :=
    ⟨rfl, by simp, rfl⟩
  have hr : Reservation.WellFormed { numbers := [2, 3] } := ⟨.inl rfl, by simp, by simp⟩
  have ht : Field.WellFormed { type := .string, name := "title", number := 1 } :=
    ⟨by simp, rfl, by simp⟩
  have hp : Field.WellFormed { type := .string, name := "path", number } := ⟨h, rfl, by simp⟩
  have hs : Oneof.WellFormed
      { name := "source", members := [{ type := .string, name := "path", number }] } :=
    ⟨by simp, by simpa using hp⟩
  refine .mk (by simpa [sample] using ho) (by simpa [sample] using hr) fun x hx => ?_
  simp only [sample, List.flatten_cons, List.flatten_nil, List.mem_append, List.mem_singleton,
    List.not_mem_nil, or_false] at hx
  rcases hx with rfl | rfl
  · exact .field ht
  · exact .oneof hs

lemma sample_values (number : Int) : ∀ v ∈ (sample number).typedValues, ¬ TooLarge v := by
  have hv : (sample number).typedValues = [(.bool, .bool true)] := rfl
  simp [hv, TooLarge, FieldType.isFloating]

lemma sample_numbers {number : Int} (h : ¬ Number.tooLong number) :
    ∀ n ∈ (sample number).writtenNumbers, ¬ Number.tooLong n := by
  have hn : (sample number).writtenNumbers = [2, 3, 1, number] := rfl
  rw [hn]
  simp only [List.forall_mem_cons, List.not_mem_nil, false_imp_iff, implies_true, and_true]
  exact ⟨by decide, by decide, by decide, h⟩

end Message

end ProtoSchema
