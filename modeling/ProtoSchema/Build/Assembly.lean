import ProtoSchema.Build.Draft

/-!
Nodes and entries of any kind, put together from named parts.
-/

namespace ProtoSchema.Build

/-- A node or an entry, made from its parts. -/
def ofParts (kind : Kind) (ps : Parts) : Checked Value :=
  match kind with
  | .bare => .sound (.node .bare)
  | .entry => Value.entry <$> OptionEntry.ofParts ps
  | .option => (.node <| .option ·) <$> OptionDecl.ofParts ps
  | .reservation => (.node <| .reservation ·) <$> Reservation.ofParts ps
  | .imported => (.node <| .imported ·) <$> Import.ofParts ps
  | .field => (.node <| .field ·) <$> Field.ofParts ps
  | .mapField => (.node <| .mapField ·) <$> MapField.ofParts ps
  | .oneof => (.node <| .oneof ·) <$> Oneof.ofParts ps
  | .enumValue => (.node <| .enumValue ·) <$> EnumValue.ofParts ps
  | .enum => (.node <| .enum ·) <$> EnumDecl.ofParts ps
  | .message => (.node <| .message ·) <$> Message.ofParts ps
  | .method => (.node <| .method ·) <$> Method.ofParts ps
  | .service => (.node <| .service ·) <$> Service.ofParts ps
  | .extension => (.node <| .extension ·) <$> Extension.ofParts ps
  | .file => (.node <| .file ·) <$> File.ofParts ps

theorem ofParts_nil : ∀ {kind : Kind}, withoutParts kind ≠ [] →
    ofParts kind [] = .faulty (withoutParts kind)
  | .bare, h | .file, h => absurd rfl h
  | .option, _ | .entry, _ | .reservation, _ | .imported, _ | .field, _ | .mapField, _ | .oneof, _
  | .enumValue, _ | .enum, _ | .message, _ | .method, _ | .service, _ | .extension, _ => rfl

/-- The value of a kind with the given parts, or the faults that keep it from being made. -/
def assemble (kind : Kind) (ps : Parts) : Except Invalid Value := (ofParts kind ps).toExcept kind

end ProtoSchema.Build
