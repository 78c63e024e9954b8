import ProtoSchema.Number.Quantity
import ProtoSchema.Proofs.Reading

/-!
What is constructed is well formed.

From well formed parts, whatever is not refused is well formed again. This holds of nodes and
entries that are put together at once, and of the nodes that drafts come to.
-/

namespace ProtoSchema

open Build Build.Checked
open Number (Quantity)

/-! ### Options -/

namespace OptionEntry

lemma refusal?_eq_none {e : OptionEntry} (h : e.refusal? = none) : e.WellFormed :=
  Option.map_eq_none_iff.1 h

theorem ofParts_wellFormed (ps : Parts) : (OptionEntry.ofParts ps).Ensures WellFormed := by
  intro e he
  exact refusal?_eq_none (verify_eq_sound.1 he).2

end OptionEntry

namespace OptionDecl

/-- The entries that are stated are well formed. -/
def Stated.WellFormed (s : Stated) : Prop :=
  ∀ es, s.value = .inr es → ∀ e ∈ es, e.WellFormed

lemma reads_entry : Reads Read.entry OptionEntry.WellFormed := by
  intro v hv e he
  cases v with
  | entry f =>
    cases he
    exact hv.entry_of
  | _ => cases he

lemma reads_value :
    Reads readValue fun value => ∀ es, value = .inr es → ∀ e ∈ es, e.WellFormed := by
  intro v hv value h es hes
  subst hes
  unfold readValue at h
  cases he : v.elements? with
  | none =>
    simp only [he, map_eq_sound] at h
    obtain ⟨_, -, h⟩ := h
    cases h
  | some vs =>
    simp only [he, map_eq_sound] at h
    obtain ⟨fs, hf, h⟩ := h
    cases h
    exact Reads.elements reads_entry v hv _ hf

lemma value?_wellFormed {s : Stated} (hs : s.WellFormed) {value : OptionValue}
    (h : s.value? = .ok value) : value.WellFormed := by
  unfold Stated.value? at h
  split at h
  · next es he =>
    split at h
    · cases h
      exact hs es he
    · cases h
  · next v he =>
    split at h
    · cases h
    · next hm =>
      cases h
      exact hm

lemma settle_wellFormed {s : Stated} (hs : s.WellFormed) {o : OptionDecl} (h : s.settle = .ok o) :
    o.WellFormed o.target := by
  unfold Stated.settle at h
  split at h
  · cases h
  · next hc =>
    cases hv : s.value? with
    | error r => simp [hv, Except.map] at h
    | ok value =>
      simp only [hv, Except.map, Except.ok.injEq] at h
      subst h
      refine ⟨rfl, fun hi => ?_, value?_wellFormed hs hv⟩
      simpa [hi] using hc

theorem ofParts_wellFormed {ps : Parts} (hp : ps.WellFormed) :
    (OptionDecl.ofParts ps).Ensures fun o => o.WellFormed o.target := by
  have hs : (Stated.mk <$> ps.required "option_type" Read.target
      <*> ps.required "name" Read.text
      <*> ps.optional "comment" [] Read.texts
      <*> ps.required "value_type" Read.fieldType
      <*> ps.required "value" readValue).Ensures Stated.WellFormed :=
    .seq (reads_value.required hp "value") <| .skip <| .skip <| .skip <| .start fun _ _ _ _ _ h => h
  intro o ho
  obtain ⟨s, h, ho⟩ := settle_eq_sound.1 ho
  exact settle_wellFormed (hs s h) ho

end OptionDecl

namespace Build

lemma reads_options : Reads Read.options fun os => ∀ o ∈ os, o.WellFormed o.target :=
  .elements <| .node fun n o hn h => by
    cases n with
    | option p =>
      cases h
      exact hn
    | _ => cases h

lemma options_of_target {expected : OptionTarget} {os : List OptionDecl}
    (h : ∀ o ∈ os, o.WellFormed o.target) (hr : targetRefusal? expected os = none) :
    ∀ o ∈ os, o.WellFormed expected := by
  have ht : ∀ o ∈ os, o.target = expected := by simpa [targetRefusal?] using hr
  intro o ho
  exact ht o ho ▸ h o ho

lemma optional_options {ps : Parts} (hp : ps.WellFormed) :
    (ps.optional "options" [] Read.options).Ensures fun os => ∀ o ∈ os, o.WellFormed o.target :=
  reads_options.optionalAll hp "options"

end Build

/-! ### Declarations on a line -/

namespace Build

lemma number_pos {n : Int} (h : fieldNumberRefusal? (.whole n) = none) : 0 < n := by
  simp only [fieldNumberRefusal?, Quantity.le_whole] at h
  by_cases hn : n ≤ 0
  · simp [hn] at h
  · omega

lemma typeName_isSome {field : String} {type : FieldType} {typeName : Option String}
    (h : typeNameRefusal? field type typeName = none) : typeName.isSome = type.isUserDefined := by
  cases typeName <;> cases hu : type.isUserDefined <;> simp_all [typeNameRefusal?]

end Build

namespace Field

lemma refusal?_eq_none {f : Field} (ho : ∀ o ∈ f.options, o.WellFormed o.target)
    (h : f.refusal? = none) : f.WellFormed := by
  simp only [refusal?, Option.orElse_eq_orElse, Option.orElse_eq_or, Option.or_eq_none_iff] at h
  obtain ⟨hn, ht, hr⟩ := h
  exact ⟨number_pos hn, typeName_isSome ht, options_of_target ho hr⟩

theorem ofParts_wellFormed {ps : Parts} (hp : ps.WellFormed) :
    (Field.ofParts ps).Ensures WellFormed := by
  refine Ensures.imp (.verify (P := fun f => ∀ o ∈ f.options, o.WellFormed o.target) ?_)
    fun f h => refusal?_eq_none h.1 h.2
  exact .seq (optional_options hp) <| .skip <| .skip <| .skip <| .skip <| .skip <|
    .start fun _ _ _ _ _ _ _ h => h

end Field

namespace MapField

lemma refusal?_eq_none {f : MapField} (hk : f.keyType.isMapKey)
    (ho : ∀ o ∈ f.options, o.WellFormed o.target) (h : f.refusal? = none) : f.WellFormed := by
  simp only [refusal?, Option.orElse_eq_orElse, Option.orElse_eq_or, Option.or_eq_none_iff] at h
  obtain ⟨hn, ht, hr⟩ := h
  exact ⟨hk, number_pos hn, typeName_isSome ht, options_of_target ho hr⟩

lemma reads_key : Reads (fun v => (Read.fieldType v).verify keyRefusal?) fun t => t.isMapKey := by
  intro v _ t ht
  have hr := (verify_eq_sound.1 ht).2
  by_cases hk : t.isMapKey
  · exact hk
  · simp [keyRefusal?, hk] at hr

theorem ofParts_wellFormed {ps : Parts} (hp : ps.WellFormed) :
    (MapField.ofParts ps).Ensures WellFormed := by
  refine Ensures.imp (.verify (P := fun f => f.keyType.isMapKey ∧
    ∀ o ∈ f.options, o.WellFormed o.target) ?_) fun f h => refusal?_eq_none h.1.1 h.1.2 h.2
  exact .seq (optional_options hp) <| .skip <| .skip <| .skip <| .skip <| .skip <|
    .map (reads_key.required hp "key_type") fun _ hk _ _ _ _ _ _ ho => ⟨hk, ho⟩

end MapField

namespace EnumValue

lemma refusal?_eq_none {v : EnumValue} (ho : ∀ o ∈ v.options, o.WellFormed o.target)
    (h : v.refusal? = none) : v.WellFormed := by
  simp only [refusal?, Option.orElse_eq_orElse, Option.orElse_eq_or, Option.or_eq_none_iff] at h
  obtain ⟨hn, hr⟩ := h
  refine ⟨?_, options_of_target ho hr⟩
  simp only [numberRefusal?, Quantity.isNegative_whole] at hn
  by_cases hv : v.number < 0
  · simp [hv] at hn
  · exact Int.not_lt.1 hv

theorem ofParts_wellFormed {ps : Parts} (hp : ps.WellFormed) :
    (EnumValue.ofParts ps).Ensures WellFormed := by
  refine Ensures.imp (.verify (P := fun v => ∀ o ∈ v.options, o.WellFormed o.target) ?_)
    fun v h => refusal?_eq_none h.1 h.2
  exact .seq (optional_options hp) <| .skip <| .skip <| .start fun _ _ _ _ h => h

end EnumValue

namespace Reservation

lemma refusal?_eq_none {r : Reservation} (h : r.refusal? = none) : r.WellFormed := by
  unfold refusal? at h
  split at h
  · cases h
  · next hk =>
    split at h
    · cases h
    · next hs =>
      split at h
      · cases h
      · next hn =>
        simp only [Bool.and_eq_true, Bool.not_eq_true', List.isEmpty_iff, List.isEmpty_eq_false_iff,
          Bool.and_eq_false_iff, not_and, not_or, Classical.not_not] at hk hs
        refine ⟨?_, ?_, fun n hm => ?_⟩
        · by_cases hr : r.names = []
          · exact .inl hr
          · exact .inr (hk hr)
        · by_cases hr : r.names = []
          · by_cases hm : r.numbers = []
            · exact .inr (.inr (hs ⟨hr, hm⟩))
            · exact .inr (.inl hm)
          · exact .inl hr
        · refine Int.not_le.1 fun hp => hn ?_
          exact List.any_eq_true.2 ⟨n, hm, decide_eq_true hp⟩

theorem ofParts_wellFormed (ps : Parts) : (Reservation.ofParts ps).Ensures WellFormed := by
  intro r hr
  exact refusal?_eq_none (verify_eq_sound.1 hr).2

end Reservation

namespace Import

lemma reads_path : Reads (fun v => (Read.text v).verify pathRefusal?) fun path =>
    ".proto".toList <:+ path.toList := by
  intro v _ path h
  have hr := (verify_eq_sound.1 h).2
  by_cases hs : ".proto".toList.isSuffixOf path.toList
  · exact List.isSuffixOf_iff_suffix.1 hs
  · rw [pathRefusal?, if_neg hs] at hr
    cases hr

theorem ofParts_wellFormed {ps : Parts} (hp : ps.WellFormed) :
    (Import.ofParts ps).Ensures WellFormed :=
  .skip <| .map (reads_path.required hp "path") fun _ h _ => h

end Import

/-! ### Declarations with a body -/

namespace Build

lemma reads_fields : Reads (Read.elements (Read.node .field Field.ofNode?)) fun fs =>
    ∀ f ∈ fs, f.WellFormed :=
  .elements <| .node fun n f hn h => by
    cases n with
    | field g =>
      cases h
      exact hn
    | _ => cases h

lemma reads_reservations : Reads Read.reservations fun rs => ∀ r ∈ rs, r.WellFormed :=
  .elements <| .node fun n r hn h => by
    cases n with
    | reservation s =>
      cases h
      exact hn
    | _ => cases h

end Build

namespace Oneof

/-- A member that is not refused has no label. -/
lemma reads_members :
    Reads (Read.guarded membersRefusal? (Read.elements (Read.node .field Field.ofNode?))) fun fs =>
      ∀ f ∈ fs, f.WellFormed ∧ f.modifier = .singular := by
  intro v hv fs h f hf
  unfold Read.guarded at h
  split at h
  · cases h
  · next hr =>
    refine ⟨reads_fields v hv fs h f hf, ?_⟩
    obtain ⟨vs, hc, hm⟩ := Read.mem_of_elements h
    obtain ⟨w, hw, hf⟩ := hm f hf
    obtain ⟨n, rfl, hn⟩ := Read.node_of_sound hf
    rw [hc, Option.getD_some, membersRefusal?, List.findSome?_eq_none_iff] at hr
    have hm : memberRefusal? n = none := hr _ hw
    cases n with
    | field g =>
      cases hn
      cases hg : f.modifier <;> simp [memberRefusal?, hg] at hm
      rfl
    | _ => cases hn

theorem ofParts_wellFormed {ps : Parts} (hp : ps.WellFormed) :
    (Oneof.ofParts ps).Ensures WellFormed := by
  refine Ensures.imp (.verify (P := fun o => (∀ p ∈ o.options, p.WellFormed p.target) ∧
    ∀ f ∈ o.members, f.WellFormed ∧ f.modifier = .singular) ?_)
    fun o h => ⟨options_of_target h.1.1 h.2, h.1.2⟩
  exact .seq (reads_members.optionalAll hp "members") <| .seq (optional_options hp) <| .skip <|
    .start fun _ _ _ ho _ hm => ⟨ho, hm⟩

end Oneof

namespace EnumDecl

lemma reads_values : Reads (Read.elements <| Read.node .enumValue fun
    | .enumValue v => some v
    | _ => none) fun vs => ∀ v ∈ vs, v.WellFormed :=
  .elements <| .node fun n v hn h => by
    cases n with
    | enumValue w =>
      cases h
      exact hn
    | _ => cases h

theorem ofParts_wellFormed {ps : Parts} (hp : ps.WellFormed) :
    (EnumDecl.ofParts ps).Ensures WellFormed := by
  refine Ensures.imp (.verify (P := fun e => (∀ o ∈ e.options, o.WellFormed o.target) ∧
    (∀ r ∈ e.reservations, r.WellFormed) ∧ ∀ v ∈ e.values, v.WellFormed) ?_)
    fun e h => ⟨options_of_target h.1.1 h.2, h.1.2.1, h.1.2.2⟩
  exact .seq (reads_values.optionalAll hp "enum_values") <|
    .seq (reads_reservations.optionalAll hp "reservations") <|
      .seq (optional_options hp) <| .skip <|
    .start fun _ _ _ ho _ hr _ hv => ⟨ho, hr, hv⟩

end EnumDecl

namespace Method

theorem ofParts_wellFormed {ps : Parts} (hp : ps.WellFormed) :
    (Method.ofParts ps).Ensures WellFormed := by
  refine Ensures.imp (.verify (P := fun m => ∀ o ∈ m.options, o.WellFormed o.target) ?_)
    fun m h => ⟨options_of_target h.1 h.2⟩
  exact .seq (optional_options hp) <| .skip <| .skip <| .skip <| .skip <| .skip <|
    .start fun _ _ _ _ _ _ _ h => h

end Method

namespace Service

lemma reads_methods : Reads (Read.elements <| Read.node .method fun
    | .method m => some m
    | _ => none) fun ms => ∀ m ∈ ms, m.WellFormed :=
  .elements <| .node fun n m hn h => by
    cases n with
    | method k =>
      cases h
      exact hn
    | _ => cases h

theorem ofParts_wellFormed {ps : Parts} (hp : ps.WellFormed) :
    (Service.ofParts ps).Ensures WellFormed := by
  refine Ensures.imp (.verify (P := fun s => (∀ o ∈ s.options, o.WellFormed o.target) ∧
    ∀ m ∈ s.methods, m.WellFormed) ?_) fun s h => ⟨options_of_target h.1.1 h.2, h.1.2⟩
  exact .seq (reads_methods.optionalAll hp "rpcs") <| .seq (optional_options hp) <| .skip <|
    .start fun _ _ _ ho _ hm => ⟨ho, hm⟩

end Service

namespace Extension

lemma reads_plainFields :
    Reads (Read.guarded fieldsRefusal? (Read.elements (Read.node .field Field.ofNode?))) fun fs =>
      ∀ f ∈ fs, f.WellFormed := by
  intro v hv fs h
  unfold Read.guarded at h
  split at h
  · cases h
  · exact reads_fields v hv fs h

theorem ofParts_wellFormed {ps : Parts} (hp : ps.WellFormed) :
    (Extension.ofParts ps).Ensures WellFormed :=
  .seq (reads_plainFields.optionalAll hp "extension_fields") <| .skip <| .start fun _ _ _ h => h

end Extension

namespace Message

lemma reads_blocks : Reads (Read.elements (Read.elements (Read.nodeOf Member.kinds Member.ofNode?)))
    fun bs => ∀ b ∈ bs, ∀ x ∈ b, x.WellFormed :=
  .elements <| .elements <| .nodeOf fun n x hn h => by
    cases n with
    | field f =>
      cases h
      exact .field hn
    | mapField f =>
      cases h
      exact .map hn
    | oneof o =>
      cases h
      exact .oneof hn
    | message m =>
      cases h
      exact .message hn
    | enum e =>
      cases h
      exact .enum hn
    | _ => cases h

theorem ofParts_wellFormed {ps : Parts} (hp : ps.WellFormed) :
    (Message.ofParts ps).Ensures WellFormed := by
  refine Ensures.imp (.verify (P := fun m => (∀ o ∈ m.options, o.WellFormed o.target) ∧
    (∀ r ∈ m.reservations, r.WellFormed) ∧ ∀ b ∈ m.blocks, ∀ x ∈ b, x.WellFormed) ?_)
    fun m h => .mk (options_of_target h.1.1 h.2) h.1.2.1 fun x hx => ?_
  · exact .seq (reads_blocks.optionalAll hp "blocks") <|
      .seq (reads_reservations.optionalAll hp "reservations") <|
        .seq (optional_options hp) <| .skip <|
      .start fun _ _ _ ho _ hr _ hb => ⟨ho, hr, hb⟩
  · obtain ⟨b, hb, hx⟩ := List.mem_flatten.1 hx
    exact h.1.2.2 b hb x hx

end Message

namespace File

lemma reads_imports : Reads (Read.elements <| Read.node .imported fun
    | .imported i => some i
    | _ => none) fun is => ∀ i ∈ is, i.WellFormed :=
  .elements <| .node fun n i hn h => by
    cases n with
    | imported j =>
      cases h
      exact hn
    | _ => cases h

lemma reads_blocks :
    Reads (Read.elements (Read.elements (Read.nodeOf Declaration.kinds Declaration.ofNode?)))
      fun bs => ∀ b ∈ bs, ∀ d ∈ b, d.WellFormed :=
  .elements <| .elements <| .nodeOf fun n d hn h => by
    cases n with
    | message m =>
      cases h
      exact hn
    | enum e =>
      cases h
      exact hn
    | service s =>
      cases h
      exact hn
    | extension e =>
      cases h
      exact hn
    | _ => cases h

theorem ofParts_wellFormed {ps : Parts} (hp : ps.WellFormed) :
    (File.ofParts ps).Ensures WellFormed := by
  refine Ensures.imp (.verify (P := fun f => (∀ i ∈ f.explicitImports, i.WellFormed) ∧
    (∀ o ∈ f.options, o.WellFormed o.target) ∧ ∀ b ∈ f.blocks, ∀ d ∈ b, d.WellFormed) ?_)
    fun f h => ⟨h.1.1, options_of_target h.1.2.1 h.2, fun d hd => ?_⟩
  · exact .seq (reads_blocks.optionalAll hp "blocks") <| .seq (optional_options hp) <|
      .seq (reads_imports.optionalAll hp "explicit_imports") <| .skip <|
      .start fun _ _ _ hi _ ho _ hb => ⟨hi, ho, hb⟩
  · obtain ⟨b, hb, hd⟩ := List.mem_flatten.1 hd
    exact h.1.2.2 b hb d hd

end File

namespace Build

/-- **Construction**: what is put together from well formed parts is well formed. -/
theorem ofParts_wellFormed (kind : Kind) {ps : Parts} (hp : ps.WellFormed) :
    (ofParts kind ps).Ensures Value.WellFormed := by
  cases kind with
  | bare =>
    intro v hv
    cases hv
    exact .node trivial
  | entry => exact .map (OptionEntry.ofParts_wellFormed ps) fun _ h => .entry h
  | option => exact .map (OptionDecl.ofParts_wellFormed hp) fun _ h => .node h
  | reservation => exact .map (Reservation.ofParts_wellFormed ps) fun _ h => .node h
  | imported => exact .map (Import.ofParts_wellFormed hp) fun _ h => .node h
  | field => exact .map (Field.ofParts_wellFormed hp) fun _ h => .node h
  | mapField => exact .map (MapField.ofParts_wellFormed hp) fun _ h => .node h
  | oneof => exact .map (Oneof.ofParts_wellFormed hp) fun _ h => .node h
  | enumValue => exact .map (EnumValue.ofParts_wellFormed hp) fun _ h => .node h
  | enum => exact .map (EnumDecl.ofParts_wellFormed hp) fun _ h => .node h
  | message => exact .map (Message.ofParts_wellFormed hp) fun _ h => .node h
  | method => exact .map (Method.ofParts_wellFormed hp) fun _ h => .node h
  | service => exact .map (Service.ofParts_wellFormed hp) fun _ h => .node h
  | extension => exact .map (Extension.ofParts_wellFormed hp) fun _ h => .node h
  | file => exact .map (File.ofParts_wellFormed hp) fun _ h => .node h

/-! ### Drafts -/

namespace Draft

/-- What a draft states, under the names of the parts. -/
def parts : Draft → Parts
  | option d =>
    [("option_type", d.target), ("name", d.name), ("comment", .tuple d.comment),
      ("value_type", d.type), ("value", d.value)]
  | reservation d =>
    [("field_names", .texts d.names), ("field_numbers", .tuple (d.numbers.map .ofQuantity)),
      ("field_ranges", .tuple d.ranges), ("comment", .tuple d.comment)]
  | field d =>
    [("field_type", d.type), ("name", d.name), ("number", .ofQuantity d.number),
      ("modifier", .choice (.modifier d.modifier)), ("custom_type_name", d.typeName),
      ("comment", .tuple d.comment), ("options", .nodeList d.options)]
  | mapField d =>
    [("key_type", d.keyType), ("value_type", d.valueType), ("name", d.name),
      ("number", .ofQuantity d.number), ("custom_type_name", d.typeName),
      ("comment", .tuple d.comment), ("options", .nodeList d.options)]
  | oneof d =>
    [("name", d.name), ("comment", .tuple d.comment), ("options", .nodeList d.options),
      ("members", .nodeList d.members)]
  | enumValue d =>
    [("name", d.name), ("number", .ofQuantity d.number), ("comment", .tuple d.comment),
      ("options", .nodeList d.options)]
  | enum d =>
    [("name", d.name), ("comment", .tuple d.comment), ("options", .nodeList d.options),
      ("reservations", .nodeList d.reservations), ("enum_values", .nodeList d.values)]
  | message d =>
    [("name", d.name), ("comment", .tuple d.comment), ("options", .nodeList d.options),
      ("reservations", .nodeList d.reservations), ("blocks", .blocks id d.blocks)]
  | method d =>
    [("name", d.name), ("request", d.request), ("response", d.response),
      ("request_streaming", d.requestStreaming), ("response_streaming", d.responseStreaming),
      ("comment", .tuple d.comment), ("options", .nodeList d.options)]
  | service d =>
    [("name", d.name), ("comment", .tuple d.comment), ("options", .nodeList d.options),
      ("rpcs", .nodeList d.methods)]
  | extension d =>
    [("option_type", d.target), ("comment", .tuple d.comment),
      ("extension_fields", .nodeList d.fields)]
  | file d =>
    [("comment", .tuple d.comment), ("package", d.package),
      ("explicit_imports", .nodeList d.imports), ("options", .nodeList d.options),
      ("blocks", .blocks id d.blocks)]

lemma sound_of_toNode {α : Type} {kind : Kind} {node : α → Node} {x : Checked α} {n : Node}
    (h : x.toNode kind node = .ok n) : (fun a => Value.node (node a)) <$> x = sound (.node n) := by
  obtain ⟨a, ha, rfl⟩ := toNode_eq_ok.1 h
  exact map_eq_sound.2 ⟨a, ha, rfl⟩

/-- The node that a draft builds is put together from what the draft states. -/
theorem ofParts_of_build {d : Draft} {n : Node} (h : d.build = .ok n) :
    ofParts d.kind d.parts = sound (.node n) := by
  cases d with
  | option d =>
    rw [Draft.build, OptionDraft.build] at h
    split at h
    · cases h
    · cases h
    · exact sound_of_toNode h
  | method d =>
    rw [Draft.build, MethodDraft.build] at h
    split at h
    · cases h
    · cases h
    · exact sound_of_toNode h
  | reservation d => exact sound_of_toNode h
  | field d => exact sound_of_toNode h
  | mapField d => exact sound_of_toNode h
  | oneof d => exact sound_of_toNode h
  | enumValue d => exact sound_of_toNode h
  | enum d => exact sound_of_toNode h
  | message d => exact sound_of_toNode h
  | service d => exact sound_of_toNode h
  | extension d => exact sound_of_toNode h
  | file d => exact sound_of_toNode h

/-- **Building**: a draft that states well formed parts only builds a well formed node. -/
theorem build_wellFormed {d : Draft} (hd : d.parts.WellFormed) {n : Node} (h : d.build = .ok n) :
    n.WellFormed :=
  (ofParts_wellFormed d.kind hd (.node n) (ofParts_of_build h)).node_of

end Draft

end Build

end ProtoSchema
