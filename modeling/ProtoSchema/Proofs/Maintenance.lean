import ProtoSchema.Proofs.Drafting
import ProtoSchema.Session.State

/-!
Runs that keep what is constructed well formed.

A state is well formed if everything its variables and its drafts hold is. A run maintains that
whether it ends in a value or in a failure, and gives what has a property. Runs are put together
from others, and so are the properties of what they give.
-/

namespace ProtoSchema.Session

open Build

/-- Everything that variables and drafts hold is well formed. -/
structure State.WellFormed (s : State) : Prop where
  bindings : ∀ b ∈ s.bindings, b.2.WellFormed
  drafts : ∀ d ∈ s.drafts, d.WellFormed

/-- The run leaves a well formed state, and what it gives has the property. -/
structure Maintains {α : Type} (r : Run α) (P : α → Prop) : Prop where
  run : ∀ s, s.WellFormed → match r s with
    | .ok a t => t.WellFormed ∧ P a
    | .error _ t => t.WellFormed

namespace Maintains

variable {α β : Type} {r : Run α} {P : α → Prop} {Q : β → Prop}

lemma pure {a : α} (h : P a) : Maintains (pure a : Run α) P := ⟨fun _ hs => ⟨hs, h⟩⟩

lemma bind {f : α → Run β} (hr : Maintains r P) (hf : ∀ a, P a → Maintains (f a) Q) :
    Maintains (r >>= f) Q := by
  refine ⟨fun s hs => ?_⟩
  change match EStateM.bind r f s with
    | .ok b t => t.WellFormed ∧ Q b
    | .error _ t => t.WellFormed
  have h := hr.run s hs
  unfold EStateM.bind
  cases hrs : r s with
  | ok a t =>
    rw [hrs] at h
    exact (hf a h.2).run t h.1
  | error e t =>
    rw [hrs] at h
    exact h

lemma map {f : α → β} (hr : Maintains r P) (hf : ∀ a, P a → Q (f a)) :
    Maintains (f <$> r) Q := by
  rw [map_eq_pure_bind]
  exact hr.bind fun a ha => pure (hf a ha)

lemma get : Maintains (MonadState.get : Run State) State.WellFormed :=
  ⟨fun _ hs => ⟨hs, hs⟩⟩

lemma fail (f : Failure) : Maintains (Run.fail f : Run α) P := ⟨fun _ hs => hs⟩

lemma unsupported : Maintains (Run.unsupported : Run α) P := fail _

lemma refuse (r : Refusal) : Maintains (Run.refuse r : Run α) P := fail _

lemma ofExcept {ε : Type} (lift : ε → Failure) {x : Except ε α} (h : ∀ a, x = .ok a → P a) :
    Maintains (Run.ofExcept lift x) P := by
  cases x with
  | ok a => exact pure (h a rfl)
  | error e => exact fail _

lemma ofOption {x : Option α} (h : ∀ a, x = some a → P a) : Maintains (Run.ofOption x) P := by
  cases x with
  | some a => exact pure (h a rfl)
  | none => exact unsupported

lemma unlessRefused (r : Option Refusal) : Maintains (Run.unlessRefused r) fun _ => True := by
  cases r with
  | none => exact pure trivial
  | some r => exact refuse r

/-! ### Drafts -/

lemma newDraft {d : Draft} (h : d.WellFormed) : Maintains (Run.newDraft d) Value.WellFormed := by
  refine ⟨fun s hs => ⟨⟨hs.bindings, fun e he => ?_⟩, .atom trivial⟩⟩
  rcases Array.mem_push.1 he with he | rfl
  · exact hs.drafts e he
  · exact h

lemma startDraft {draft : α → Draft} {x : Except Refusal α}
    (h : ∀ a, x = .ok a → (draft a).WellFormed) :
    Maintains (Run.startDraft draft x) Value.WellFormed :=
  (ofExcept .refused h).bind fun _ ha => newDraft ha

lemma readDraft (id : Nat) : Maintains (Run.readDraft id) Draft.WellFormed :=
  get.bind fun _ hs => ofOption fun d hd => hs.drafts d (Array.mem_of_getElem? hd)

lemma writeDraft (id : Nat) {d : Draft} (h : d.WellFormed) :
    Maintains (Run.writeDraft id d) fun _ => True := by
  refine ⟨fun s hs => ⟨⟨hs.bindings, fun e he => ?_⟩, trivial⟩⟩
  rcases Array.mem_or_eq_of_mem_setIfInBounds he with he | rfl
  · exact hs.drafts e he
  · exact h

lemma buildNode {v : Value} (h : v.WellFormed) : Maintains (Run.buildNode v) Node.WellFormed := by
  cases v with
  | node n => exact pure h.node_of
  | draft id kind =>
    exact (readDraft id).bind fun d hd => ofExcept _ fun n hn => Draft.build_wellFormed hd hn
  | _ => exact unsupported

lemma buildAll {accept : Node → Run Unit} (ha : ∀ n, Maintains (accept n) fun _ => True)
    {vs : List Value} (h : ∀ v ∈ vs, v.WellFormed) :
    Maintains (Run.buildAll accept vs) fun ns => ∀ n ∈ ns, n.WellFormed := by
  induction vs with
  | nil => exact pure fun _ hn => absurd hn List.not_mem_nil
  | cons v vs ih =>
    obtain ⟨hv, hvs⟩ := List.forall_mem_cons.1 h
    exact (buildNode hv).bind fun n hn => (ha n).bind fun _ _ => (ih hvs).bind fun ns hns =>
      pure (List.forall_mem_cons.2 ⟨hn, hns⟩)

lemma construct (v : Value) : Maintains (Run.construct v) fun _ => True := by
  cases v with
  | choice c => exact pure trivial
  | node n => exact map (ofOption fun _ _ => trivial) fun _ _ => trivial
  | entry e => exact pure trivial
  | identity f => exact pure trivial
  | _ => exact unsupported

lemma requireTarget (expected target : Value) :
    Maintains (Run.requireTarget expected target) fun _ => True := by
  refine (construct expected).bind fun c _ => ?_
  split
  · exact pure trivial
  · exact refuse _

lemma acceptTarget (expected : Value) (n : Node) :
    Maintains (Run.acceptTarget expected n) fun _ => True :=
  (ofOption fun _ _ => trivial).bind fun _ (_ : True) => requireTarget _ _

lemma acceptAll (n : Node) : Maintains (Run.acceptAll n) fun _ => True := pure trivial

/-! ### Variables, constants and arguments -/

lemma valueOf (name : String) : Maintains (Run.valueOf name) Value.WellFormed := by
  refine get.bind fun s hs => ?_
  split
  · next v hv => exact pure (Parts.WellFormed.lookup hs.bindings hv)
  · exact fail _

lemma setVariable (name : String) {v : Value} (h : v.WellFormed) :
    Maintains (Run.setVariable name v) fun _ => True :=
  ⟨fun _ hs => ⟨⟨List.forall_mem_cons.2 ⟨h, hs.bindings⟩, hs.drafts⟩, trivial⟩⟩

/-- Nothing is held that was not held before. -/
lemma constant {v : Value} (h : v.WellFormed) : Maintains (Run.constant v) Value.WellFormed := by
  unfold Run.constant
  split
  · next x =>
    split
    · exact ⟨fun s hs => ⟨⟨hs.bindings, hs.drafts⟩, .atom trivial⟩⟩
    · exact pure (.atom trivial)
  · exact pure h

lemma member (enumeration : Enumeration) (given : Value) :
    Maintains (Run.member enumeration given) Value.WellFormed := by
  unfold Run.member
  split
  · exact pure (.atom trivial)
  · exact refuse _

lemma text (v : Value) : Maintains (Run.text v) fun _ => True := ofOption fun _ _ => trivial

lemma quantity (v : Value) : Maintains (Run.quantity v) fun _ => True := ofOption fun _ _ => trivial

lemma range (low high : Value) : Maintains (Run.range low high) fun _ => True :=
  (quantity low).bind fun _ _ => (unlessRefused _).bind fun _ _ => (quantity high).bind fun _ _ =>
    ofExcept _ fun _ _ => trivial

lemma contents {v : Value} (h : v.WellFormed) :
    Maintains (Run.contents v) fun vs => ∀ w ∈ vs, w.WellFormed :=
  (unlessRefused _).bind fun _ _ => ofOption fun _ hc => Value.contents_wellFormed h hc

lemma style (args : List Value) : Maintains (Run.style args) fun _ => True := by
  unfold Run.style
  split
  · exact pure trivial
  · exact ofExcept _ fun _ _ => trivial
  · split
    · exact unsupported
    · exact pure trivial
  · exact unsupported

end Maintains

end ProtoSchema.Session
