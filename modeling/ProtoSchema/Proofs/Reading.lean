import ProtoSchema.Build.Assembly
import ProtoSchema.Proofs.WellFormed

/-!
What is read off well formed values.

A value is well formed if all nodes and entries in it are. The readers of parts keep what is well
formed, so only the checks of a declaration itself are left to be looked at when it is put together.
-/

namespace ProtoSchema

open Build

/-! ### Values -/

namespace Value

/-- The value has nothing in it. -/
def IsAtom : Value → Prop
  | .list _ | .tuple _ | .entry _ | .node _ => False
  | _ => True

/-- All nodes and entries in the value are well formed. -/
inductive WellFormed : Value → Prop
  | atom {v : Value} (h : v.IsAtom) : WellFormed v
  | list {vs : List Value} (h : ∀ v ∈ vs, WellFormed v) : WellFormed (.list vs)
  | tuple {vs : List Value} (h : ∀ v ∈ vs, WellFormed v) : WellFormed (.tuple vs)
  | entry {e : OptionEntry} (h : e.WellFormed) : WellFormed (.entry e)
  | node {n : Node} (h : n.WellFormed) : WellFormed (.node n)

namespace WellFormed

lemma entry_of {e : OptionEntry} (h : WellFormed (.entry e)) : e.WellFormed := by
  cases h with
  | atom h => exact h.elim
  | entry h => exact h

lemma node_of {n : Node} (h : WellFormed (.node n)) : n.WellFormed := by
  cases h with
  | atom h => exact h.elim
  | node h => exact h

lemma text (s : String) : WellFormed (.text s) := .atom trivial

lemma map {α : Type} {f : α → Value} {as : List α} (h : ∀ a ∈ as, WellFormed (f a)) :
    ∀ v ∈ as.map f, WellFormed v := by
  intro v hv
  obtain ⟨a, ha, rfl⟩ := List.mem_map.1 hv
  exact h a ha

lemma texts (ss : List String) : WellFormed (.texts ss) := .tuple (map fun s _ => text s)

lemma textOrNull (s : Option String) : WellFormed (.textOrNull s) := by
  cases s <;> exact .atom trivial

lemma nodes {α : Type} {node : α → Node} {as : List α} (h : ∀ a ∈ as, (node a).WellFormed) :
    WellFormed (.nodes node as) := .tuple (map fun a ha => .node (h a ha))

lemma blocks {α : Type} {node : α → Node} {bs : List (List α)}
    (h : ∀ a ∈ bs.flatten, (node a).WellFormed) : WellFormed (.blocks node bs) :=
  .tuple (map fun _ hb => nodes fun a ha => h a (List.mem_flatten_of_mem hb ha))

lemma options {target : OptionTarget} {os : List OptionDecl} (h : ∀ o ∈ os, o.WellFormed target) :
    WellFormed (.options os) := by
  refine nodes fun o ho => ?_
  have ht := (h o ho).target
  change o.WellFormed o.target
  rw [ht]
  exact h o ho

end WellFormed

end Value

/-- All values among the parts are well formed. -/
def Parts.WellFormed (ps : Parts) : Prop := ∀ p ∈ ps, p.2.WellFormed

namespace Parts.WellFormed

variable {ps : Parts} {name : String} {v : Value}

lemma nil : WellFormed [] := fun _ hp => absurd hp List.not_mem_nil

lemma cons (hv : v.WellFormed) (h : WellFormed ps) : WellFormed ((name, v) :: ps) :=
  List.forall_mem_cons.2 ⟨hv, h⟩

lemma lookup (h : WellFormed ps) (hl : ps.lookup name = some v) : v.WellFormed := by
  obtain ⟨front, rest, rfl, -⟩ := List.lookup_eq_some_iff.1 hl
  exact h (name, v) (List.mem_append_right _ List.mem_cons_self)

end Parts.WellFormed

namespace Member.WellFormed

lemma node {x : Member} (h : x.WellFormed) : x.node.WellFormed := by
  cases h with
  | field h => exact h
  | map h => exact h
  | oneof h => exact h
  | message h => exact h
  | enum h => exact h

end Member.WellFormed

lemma Declaration.WellFormed.node {d : Declaration} (h : d.WellFormed) : d.node.WellFormed := by
  cases d <;> exact h

lemma OptionValue.WellFormed.toValue {v : OptionValue} (h : v.WellFormed) :
    v.toValue.WellFormed := by
  cases v with
  | literal type value => exact .atom trivial
  | entries es => exact .tuple (Value.WellFormed.map fun e he => .entry (h e he))

namespace Node

/-- A well formed node comes apart into well formed parts. -/
lemma parts_wellFormed {n : Node} (h : n.WellFormed) : n.parts.WellFormed := by
  cases n with
  | bare => exact .nil
  | option o =>
    exact .cons (.atom trivial) <| .cons (.text _) <| .cons (.texts _) <| .cons (.atom trivial) <|
      .cons h.value.toValue .nil
  | reservation r =>
    exact .cons (.texts _) <| .cons (.tuple (.map fun _ _ => .atom trivial)) <|
      .cons (.tuple (.map fun _ _ => .atom trivial)) <| .cons (.texts _) .nil
  | imported i => exact .cons (.text _) <| .cons (.atom trivial) .nil
  | field f =>
    exact .cons (.atom trivial) <| .cons (.text _) <| .cons (.atom trivial) <|
      .cons (.atom trivial) <| .cons (.textOrNull _) <| .cons (.texts _) <|
      .cons (.options h.options) .nil
  | mapField f =>
    exact .cons (.atom trivial) <| .cons (.atom trivial) <| .cons (.text _) <|
      .cons (.atom trivial) <| .cons (.textOrNull _) <| .cons (.texts _) <|
      .cons (.options h.options) .nil
  | oneof o =>
    exact .cons (.text _) <| .cons (.texts _) <| .cons (.options h.options) <|
      .cons (.nodes fun f hf => (h.members f hf).1) .nil
  | enumValue v =>
    exact .cons (.text _) <| .cons (.atom trivial) <| .cons (.texts _) <|
      .cons (.options h.options) .nil
  | enum e =>
    exact .cons (.text _) <| .cons (.texts _) <| .cons (.options h.options) <|
      .cons (.nodes h.reservations) <| .cons (.nodes h.values) .nil
  | message m =>
    exact .cons (.text _) <| .cons (.texts _) <| .cons (.options h.options) <|
      .cons (.nodes h.reservations) <| .cons (.blocks fun x hx => (h.members x hx).node) .nil
  | method m =>
    exact .cons (.text _) <| .cons (.text _) <| .cons (.text _) <| .cons (.atom trivial) <|
      .cons (.atom trivial) <| .cons (.texts _) <| .cons (.options h.options) .nil
  | service s =>
    exact .cons (.text _) <| .cons (.texts _) <| .cons (.options h.options) <|
      .cons (.nodes h.methods) .nil
  | extension e =>
    exact .cons (.atom trivial) <| .cons (.texts _) <| .cons (.nodes h) .nil
  | file f =>
    exact .cons (.texts _) <| .cons (.textOrNull _) <| .cons (.nodes h.imports) <|
      .cons (.options h.options) <| .cons (.blocks fun d hd => (h.declarations d hd).node) .nil

end Node

namespace Value

lemma WellFormed.named {ps : Parts} (h : ps.WellFormed) :
    ∀ v ∈ ps.map fun p => Value.tuple [.text p.1, p.2], v.WellFormed :=
  map fun p hp => .tuple (List.forall_mem_cons.2 ⟨text p.1, List.forall_mem_singleton.2 (h p hp)⟩)

/-- What a well formed value consists of is well formed. -/
lemma contents_wellFormed {v : Value} (h : v.WellFormed) {vs : List Value}
    (hc : v.contents? = some vs) :
    ∀ w ∈ vs, w.WellFormed := by
  cases h with
  | list h => exact Option.some.inj hc ▸ h
  | tuple h => exact Option.some.inj hc ▸ h
  | @entry e h =>
    have hp : e.parts.WellFormed :=
      .cons (.text _) <| .cons (.atom trivial) <| .cons (.atom trivial) .nil
    exact Option.some.inj hc ▸ WellFormed.named hp
  | @node n h => exact Option.some.inj hc ▸ WellFormed.named (Node.parts_wellFormed h)
  | atom h =>
    cases v with
    | scalar s =>
      cases s with
      | text s => exact Option.some.inj hc ▸ WellFormed.map fun _ _ => .text _
      | bytes b => exact Option.some.inj hc ▸ WellFormed.map fun _ _ => .atom trivial
      | _ => cases hc
    | list vs => exact h.elim
    | tuple vs => exact h.elim
    | entry e => exact h.elim
    | node n => exact h.elim
    | choice c => exact Option.some.inj hc ▸ WellFormed.map fun _ _ => .text _
    | range r =>
      obtain ⟨ns, -, rfl⟩ := Option.map_eq_some_iff.1 hc
      exact WellFormed.map fun _ _ => .atom trivial
    | settings s => exact Option.some.inj hc ▸ WellFormed.map fun _ _ => .text _
    | comparison equal => exact Option.some.inj hc ▸ WellFormed.map fun _ _ => .text _
    | null => cases hc
    | enumMember => cases hc
    | identity f => cases hc
    | draft id kind => cases hc

lemma contents_of_elements {v : Value} {vs : List Value} (h : v.elements? = some vs) :
    v.contents? = some vs := by
  rw [elements?] at h
  split at h
  · cases h
  · exact h

end Value

/-! ### Checked values -/

namespace Build

namespace Checked

variable {α β : Type}

/-- What is sound has the property. -/
def Ensures (x : Checked α) (P : α → Prop) : Prop := ∀ a, x = sound a → P a

namespace Ensures

variable {P : α → Prop} {Q : β → Prop} {x : Checked α}

lemma imp {R : α → Prop} (h : x.Ensures P) (hi : ∀ a, P a → R a) : x.Ensures R :=
  fun a ha => hi a (h a ha)

lemma map {f : α → β} (hx : x.Ensures P) (hf : ∀ a, P a → Q (f a)) :
    (f <$> x).Ensures Q := by
  intro b hb
  obtain ⟨a, ha, rfl⟩ := map_eq_sound.1 hb
  exact hf a (hx a ha)

/-- A property of all arguments is asked for argument by argument, the last one first. -/
lemma seq {f : Checked (α → β)} (hx : x.Ensures P) (hf : f.Ensures fun g => ∀ a, P a → Q (g a)) :
    (f <*> x).Ensures Q := by
  intro b hb
  obtain ⟨g, a, hg, ha, rfl⟩ := seq_eq_sound.1 hb
  exact hf g hg a (hx a ha)

/-- Nothing is asked of an argument. -/
lemma skip {f : Checked (α → β)} (hf : f.Ensures fun g => ∀ a, Q (g a)) :
    (f <*> x).Ensures Q := by
  intro b hb
  obtain ⟨g, a, hg, -, rfl⟩ := seq_eq_sound.1 hb
  exact hf g hg a

lemma start {f : α → β} (hf : ∀ a, Q (f a)) : (f <$> x).Ensures Q := by
  intro b hb
  obtain ⟨a, -, rfl⟩ := map_eq_sound.1 hb
  exact hf a

lemma verify {refusal? : α → Option Refusal} (h : x.Ensures P) :
    (x.verify refusal?).Ensures fun a => P a ∧ refusal? a = none := by
  intro a ha
  obtain ⟨hx, hr⟩ := verify_eq_sound.1 ha
  exact ⟨h a hx, hr⟩

end Ensures

end Checked

open Checked

/-! ### Readers -/

/-- What is read off a well formed value has the property. -/
def Reads {α : Type} (read : Value → Checked α) (P : α → Prop) : Prop :=
  ∀ v, v.WellFormed → (read v).Ensures P

lemma mem_of_all {α β : Type} {read : α → Checked β} {start : Nat} {as : List α} {bs : List β}
    (h : Checked.all read start as = sound bs) : ∀ b ∈ bs, ∃ a ∈ as, read a = sound b := by
  induction as generalizing start bs with
  | nil =>
    cases h
    exact fun b hb => absurd hb List.not_mem_nil
  | cons a as ih =>
    obtain ⟨_, bs, ha, hbs, rfl⟩ := seq_eq_sound.1 h
    obtain ⟨b, hb, rfl⟩ := map_eq_sound.1 ha
    refine List.forall_mem_cons.2 ⟨⟨a, List.mem_cons_self, within_eq_sound.1 hb⟩, fun c hc => ?_⟩
    obtain ⟨d, hd, hr⟩ := ih hbs c hc
    exact ⟨d, List.mem_cons_of_mem a hd, hr⟩

namespace Read

variable {α : Type} {read : Value → Checked α} {P : α → Prop}

lemma mem_of_elements {v : Value} {as : List α} (h : elements read v = sound as) :
    ∃ vs, v.contents? = some vs ∧ ∀ a ∈ as, ∃ w ∈ vs, read w = sound a := by
  unfold elements at h
  cases he : v.elements? with
  | none => simp [he, fault] at h
  | some vs =>
    simp only [he] at h
    exact ⟨vs, Value.contents_of_elements he, mem_of_all h⟩

lemma node_of_sound {kind : Kind} {part? : Node → Option α} {v : Value} {a : α}
    (h : node kind part? v = sound a) : ∃ n, v = .node n ∧ part? n = some a := by
  cases v with
  | node n =>
    refine ⟨n, rfl, ?_⟩
    cases hp : part? n with
    | none => simp [node, Value.node?, hp] at h
    | some b => simpa [node, Value.node?, hp] using h
  | _ => cases h

lemma node_of_soundOf {kinds : List Kind} {part? : Node → Option α} {v : Value} {a : α}
    (h : nodeOf kinds part? v = sound a) : ∃ n, v = .node n ∧ part? n = some a := by
  cases v with
  | node n =>
    refine ⟨n, rfl, ?_⟩
    cases hp : part? n with
    | none => simp [nodeOf, Value.node?, hp] at h
    | some b => simpa [nodeOf, Value.node?, hp] using h
  | _ => cases h

end Read

namespace Reads

variable {α : Type} {read : Value → Checked α} {P : α → Prop} {ps : Parts}

lemma elements (h : Reads read P) : Reads (Read.elements read) fun as => ∀ a ∈ as, P a := by
  intro v hv as has a ha
  obtain ⟨vs, hc, hm⟩ := Read.mem_of_elements has
  obtain ⟨w, hw, hr⟩ := hm a ha
  exact h w (Value.contents_wellFormed hv hc w hw) a hr

lemma node {kind : Kind} {part? : Node → Option α}
    (h : ∀ n a, n.WellFormed → part? n = some a → P a) : Reads (Read.node kind part?) P := by
  intro v hv a ha
  obtain ⟨n, rfl, hp⟩ := Read.node_of_sound ha
  exact h n a hv.node_of hp

lemma nodeOf {kinds : List Kind} {part? : Node → Option α}
    (h : ∀ n a, n.WellFormed → part? n = some a → P a) :
    Reads (Read.nodeOf kinds part?) P := by
  intro v hv a ha
  obtain ⟨n, rfl, hp⟩ := Read.node_of_soundOf ha
  exact h n a hv.node_of hp

lemma required (h : Reads read P) (hp : ps.WellFormed) (name : String) :
    (ps.required name read).Ensures P := by
  intro a ha
  unfold Parts.required at ha
  cases hl : ps.lookup name with
  | none => simp [hl, fault] at ha
  | some v =>
    simp only [hl, within_eq_sound] at ha
    exact h v (hp.lookup hl) a ha

lemma optional (h : Reads read P) (hp : ps.WellFormed) (name : String) {usual : α} (hu : P usual) :
    (ps.optional name usual read).Ensures P := by
  intro a ha
  unfold Parts.optional at ha
  cases hl : ps.lookup name with
  | none =>
    simp only [hl, sound.injEq] at ha
    exact ha ▸ hu
  | some v =>
    simp only [hl, within_eq_sound] at ha
    exact h v (hp.lookup hl) a ha

/-- Nothing is wrong with elements that are left out. -/
lemma optionalAll {read : Value → Checked (List α)} (h : Reads read fun as => ∀ a ∈ as, P a)
    (hp : ps.WellFormed) (name : String) :
    (ps.optional name [] read).Ensures fun as => ∀ a ∈ as, P a :=
  h.optional hp name fun _ ha => absurd ha List.not_mem_nil

end Reads

end Build

end ProtoSchema
