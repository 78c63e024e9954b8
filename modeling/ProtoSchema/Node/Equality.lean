import ProtoSchema.Node.Basic

/-!
Equality of nodes: the same kind, with the same parts. Values inside of them are the same if they
are equal as numbers, texts or bytes.
-/

namespace ProtoSchema

mutual

def Message.same : Message → Message → Bool
  | ⟨name, comment, options, reservations, blocks⟩, n =>
    name == n.name && comment == n.comment && options == n.options &&
      reservations == n.reservations && Member.sameBlocks blocks n.blocks

def Member.same : Member → Member → Bool
  | .field f, .field g => f == g
  | .map f, .map g => f == g
  | .oneof o, .oneof p => o == p
  | .message m, .message n => Message.same m n
  | .enum e, .enum f => e == f
  | _, _ => false

def Member.sameList : List Member → List Member → Bool
  | [], [] => true
  | m :: ms, n :: ns => Member.same m n && Member.sameList ms ns
  | _, _ => false

def Member.sameBlocks : List (List Member) → List (List Member) → Bool
  | [], [] => true
  | b :: bs, c :: cs => Member.sameList b c && Member.sameBlocks bs cs
  | _, _ => false

end

instance : BEq Message := ⟨Message.same⟩

def Declaration.same : Declaration → Declaration → Bool
  | .message m, .message n => m == n
  | .enum e, .enum f => e == f
  | .service s, .service t => s == t
  | .extension e, .extension f => e == f
  | _, _ => false

instance : BEq Declaration := ⟨Declaration.same⟩

def File.same (f g : File) : Bool :=
  f.comment == g.comment && f.package == g.package && f.explicitImports == g.explicitImports &&
    f.options == g.options && f.blocks == g.blocks

instance : BEq File := ⟨File.same⟩

def Node.same : Node → Node → Bool
  | .bare, .bare => true
  | .option o, .option p => o == p
  | .reservation r, .reservation s => r == s
  | .imported i, .imported j => i == j
  | .field f, .field g => f == g
  | .mapField f, .mapField g => f == g
  | .oneof o, .oneof p => o == p
  | .enumValue v, .enumValue w => v == w
  | .enum e, .enum f => e == f
  | .message m, .message n => m == n
  | .method m, .method n => m == n
  | .service s, .service t => s == t
  | .extension e, .extension f => e == f
  | .file f, .file g => f == g
  | _, _ => false

instance : BEq Node := ⟨Node.same⟩

end ProtoSchema
