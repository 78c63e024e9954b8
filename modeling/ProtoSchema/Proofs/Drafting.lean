import ProtoSchema.Proofs.Construction

/-!
What changes of drafts keep.

A draft keeps whatever it is given until it is built. Each change adds parts that are well formed to
those that are, so what a draft states stays well formed, and so is the node that it comes to.
-/

namespace ProtoSchema

open Build

/-! ### Values that drafts state -/

namespace Value

variable {v : Value}

@[simp] lemma wellFormed_list {vs : List Value} :
    (list vs).WellFormed ↔ ∀ v ∈ vs, v.WellFormed := by
  constructor
  · intro h
    cases h with
    | atom h => exact h.elim
    | list h => exact h
  · exact .list

@[simp] lemma wellFormed_tuple {vs : List Value} :
    (tuple vs).WellFormed ↔ ∀ v ∈ vs, v.WellFormed := by
  constructor
  · intro h
    cases h with
    | atom h => exact h.elim
    | tuple h => exact h
  · exact .tuple

@[simp] lemma wellFormed_node {n : Node} : (node n).WellFormed ↔ n.WellFormed :=
  ⟨WellFormed.node_of, .node⟩

@[simp] lemma wellFormed_nodes {α : Type} {node : α → Node} {as : List α} :
    (nodes node as).WellFormed ↔ ∀ a ∈ as, (node a).WellFormed := by simp [nodes]

@[simp] lemma wellFormed_nodeList {ns : List Node} :
    (nodeList ns).WellFormed ↔ ∀ n ∈ ns, n.WellFormed := by simp [nodeList]

@[simp] lemma wellFormed_blocks {α : Type} {node : α → Node} {bs : List (List α)} :
    (blocks node bs).WellFormed ↔ ∀ b ∈ bs, ∀ a ∈ b, (node a).WellFormed := by simp [blocks]

@[simp] lemma wellFormed_null : null.WellFormed := .atom trivial

@[simp] lemma wellFormed_choice (c : Choice) : (choice c).WellFormed := .atom trivial

@[simp] lemma wellFormed_fieldType (t : FieldType) : (fieldType t).WellFormed := .atom trivial

@[simp] lemma wellFormed_target (t : OptionTarget) : (target t).WellFormed := .atom trivial

@[simp] lemma wellFormed_scalar (s : Scalar) : (scalar s).WellFormed := .atom trivial

@[simp] lemma wellFormed_range (r : FieldRange) : (range r).WellFormed := .atom trivial

@[simp] lemma wellFormed_text (s : String) : (text s).WellFormed := .atom trivial

@[simp] lemma wellFormed_bool (b : Bool) : (bool b).WellFormed := .atom trivial

@[simp] lemma wellFormed_ofQuantity (q : Number.Quantity) : (ofQuantity q).WellFormed :=
  .atom trivial

@[simp] lemma wellFormed_texts (ss : List String) : (texts ss).WellFormed := .texts ss

end Value

namespace Parts

@[simp] lemma wellFormed_nil : Parts.WellFormed [] := .nil

@[simp] lemma wellFormed_cons {name : String} {v : Value} {ps : Parts} :
    Parts.WellFormed ((name, v) :: ps) ↔ v.WellFormed ∧ ps.WellFormed :=
  List.forall_mem_cons

/-- The parts with another value in the place of a part. -/
def replacing (ps : Parts) (name : String) (v : Value) : Parts :=
  ps.map fun p => if p.1 = name then (name, v) else p

lemma WellFormed.replacing {ps : Parts} (h : ps.WellFormed) (name : String) {v : Value}
    (hv : v.WellFormed) :
    (ps.replacing name v).WellFormed := by
  refine List.forall_mem_map.2 fun p hp => ?_
  split
  · exact hv
  · exact h p hp

end Parts

/-! ### Drafts -/

namespace Build

/-- Whatever the draft states is well formed. -/
def Draft.WellFormed (d : Draft) : Prop := d.parts.WellFormed

namespace Draft.WellFormed

/-! ### New drafts -/

lemma ofItems {items : List Value} {d : ReservationDraft}
    (h : ReservationDraft.ofItems items = .ok d) :
    (reservation d).WellFormed := by
  simp only [ReservationDraft.ofItems] at h
  split at h
  · cases h
  · split at h
    · cases h
    · split at h <;> cases h
      simp [Draft.WellFormed, parts]

lemma startField {type name : Value} (ht : type.WellFormed) (hn : name.WellFormed)
    {number : Number.Quantity} {d : FieldDraft} (h : FieldDraft.start type name number = .ok d) :
    (field d).WellFormed := by
  unfold FieldDraft.start at h
  split at h <;> cases h
  simp [Draft.WellFormed, parts, ht, hn]

lemma startMapField {key value name : Value} (hk : key.WellFormed) (hv : value.WellFormed)
    (hn : name.WellFormed) {number : Number.Quantity} {d : MapFieldDraft}
    (h : MapFieldDraft.start key value name number = .ok d) : (mapField d).WellFormed := by
  unfold MapFieldDraft.start at h
  split at h <;> cases h
  simp [Draft.WellFormed, parts, hk, hv, hn]

lemma startEnumValue {name : Value} (hn : name.WellFormed) {number : Number.Quantity}
    {d : EnumValueDraft} (h : EnumValueDraft.start name number = .ok d) :
    (enumValue d).WellFormed := by
  unfold EnumValueDraft.start at h
  split at h <;> cases h
  simp [Draft.WellFormed, parts, hn]

/-! ### Changes of one part -/

variable {d e : Draft}

lemma part (hd : d.WellFormed) (name : String) {v : Value} (hv : d.parts.lookup name = some v) :
    v.WellFormed :=
  Parts.WellFormed.lookup hd hv

lemma replace (hd : d.WellFormed) (name : String) {v : Value} (hv : v.WellFormed)
    (he : e.parts = d.parts.replacing name v) : e.WellFormed := by
  rw [Draft.WellFormed, he]
  exact Parts.WellFormed.replacing hd name hv

lemma addNodes (hd : d.WellFormed) (name : String) {ns ms : List Node}
    (hn : d.parts.lookup name = some (.nodeList ns)) (hm : ∀ n ∈ ms, n.WellFormed)
    (he : e.parts = d.parts.replacing name (.nodeList (ns ++ ms))) : e.WellFormed := by
  refine hd.replace name ?_ he
  have hns := hd.part name hn
  rw [Value.wellFormed_nodeList] at hns ⊢
  exact List.forall_mem_append.2 ⟨hns, hm⟩

lemma addBlock (hd : d.WellFormed) {bs : List (List Node)} {ms : List Node}
    (hb : d.parts.lookup "blocks" = some (.blocks id bs)) (hm : ∀ n ∈ ms, n.WellFormed)
    (he : e.parts = d.parts.replacing "blocks" (.blocks id (addBlock bs ms))) : e.WellFormed := by
  refine hd.replace "blocks" ?_ he
  have hbs := hd.part "blocks" hb
  rw [Value.wellFormed_blocks] at hbs ⊢
  unfold Build.addBlock
  split
  · exact hbs
  · exact List.forall_mem_append.2 ⟨hbs, List.forall_mem_singleton.2 hm⟩

lemma setComment (hd : d.WellFormed) {lines : List Value} (hl : ∀ v ∈ lines, v.WellFormed)
    (h : d.setComment lines = .ok e) : e.WellFormed := by
  cases d with
  | option d =>
    simp only [Draft.setComment, OptionDraft.setComment] at h
    split at h <;> cases h
    exact hd.replace "comment" (.tuple hl) rfl
  | _ =>
    cases h
    exact hd.replace "comment" (.tuple hl) rfl

lemma addOptions (hd : d.WellFormed) {options : List Node} (ho : ∀ n ∈ options, n.WellFormed) :
    (d.addOptions options).WellFormed := by
  cases d with
  | option d => exact hd
  | reservation d => exact hd
  | extension d => exact hd
  | _ => exact hd.addNodes "options" rfl ho rfl

end Draft.WellFormed

/-! ### Changes of one kind of draft -/

namespace Draft.WellFormed

lemma setValue {d e : OptionDraft} (hd : (option d).WellFormed) {type v : Value}
    (ht : type.WellFormed) (hv : v.WellFormed) (h : d.setValue type v = .ok e) :
    (option e).WellFormed := by
  have hs : ∀ w : Value, w.WellFormed → (option { d with type, value := w }).WellFormed := by
    intro w hw
    have ht : (option { d with type }).WellFormed := hd.replace "value_type" ht rfl
    exact ht.replace "value" hw rfl
  unfold OptionDraft.setValue at h
  split at h
  · cases he : entriesOf v with
    | error r => simp [he, Except.map] at h
    | ok vs =>
      simp only [he, Except.map, Except.ok.injEq] at h
      subst h
      refine hs _ (.tuple ?_)
      unfold entriesOf at he
      split at he
      · cases he
      · next hc =>
        cases he
        exact Value.contents_wellFormed hv hc
      · cases he
  · split at h <;> cases h
    exact hs v hv

lemma addRanges {d e : ReservationDraft} (hd : (reservation d).WellFormed) {ranges : List Value}
    (hr : ∀ v ∈ ranges, v.WellFormed) (h : d.addRanges ranges = .ok e) :
    (reservation e).WellFormed := by
  unfold ReservationDraft.addRanges at h
  split at h <;> cases h
  have hrs := Value.wellFormed_tuple.1 (hd.part "field_ranges" rfl)
  exact hd.replace "field_ranges" (.tuple (List.forall_mem_append.2 ⟨hrs, hr⟩)) rfl

lemma setRepeated {d e : FieldDraft} (hd : (field d).WellFormed) {repeated : Bool}
    (h : d.setRepeated repeated = .ok e) : (field e).WellFormed := by
  unfold FieldDraft.setRepeated at h
  split at h <;> cases h
  exact hd.replace "modifier" (Value.wellFormed_choice _) rfl

lemma setOptional {d e : FieldDraft} (hd : (field d).WellFormed) {optional : Bool}
    (h : d.setOptional optional = .ok e) : (field e).WellFormed := by
  unfold FieldDraft.setOptional at h
  split at h <;> cases h
  exact hd.replace "modifier" (Value.wellFormed_choice _) rfl

lemma setTypeName {d e : FieldDraft} (hd : (field d).WellFormed) {v : Value} (hv : v.WellFormed)
    (h : d.setTypeName v = .ok e) : (field e).WellFormed := by
  unfold FieldDraft.setTypeName at h
  split at h <;> cases h
  exact hd.replace "custom_type_name" hv rfl

lemma setValueTypeName {d e : MapFieldDraft} (hd : (mapField d).WellFormed) {v : Value}
    (hv : v.WellFormed) (h : d.setTypeName v = .ok e) : (mapField e).WellFormed := by
  unfold MapFieldDraft.setTypeName at h
  split at h <;> cases h
  exact hd.replace "custom_type_name" hv rfl

lemma setRequest {d : MethodDraft} (hd : (method d).WellFormed) {name streaming : Value}
    (hn : name.WellFormed) (hs : streaming.WellFormed) :
    (method { d with request := name, requestStreaming := streaming }).WellFormed := by
  have hr : (method { d with request := name }).WellFormed := hd.replace "request" hn rfl
  exact hr.replace "request_streaming" hs rfl

lemma setResponse {d : MethodDraft} (hd : (method d).WellFormed) {name streaming : Value}
    (hn : name.WellFormed) (hs : streaming.WellFormed) :
    (method { d with response := name, responseStreaming := streaming }).WellFormed := by
  have hr : (method { d with response := name }).WellFormed := hd.replace "response" hn rfl
  exact hr.replace "response_streaming" hs rfl

end Draft.WellFormed

end Build

end ProtoSchema
