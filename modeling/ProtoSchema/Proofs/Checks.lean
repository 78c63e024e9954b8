import ProtoSchema.Proofs.Fault
import ProtoSchema.Proofs.Registration

/-!
Checks that are made while a script is put together.

Elements are registered with a scope one after another, and a conflict takes the place of what would
follow. So the faults of the script show whether the scope is unique.
-/

namespace ProtoSchema

open Print Usage

namespace Print

/-! ### Exact checks -/

/-- Every fault of the script is a conflict, and it has none if and only if the scopes
are unique. -/
structure Checks (s : Script) (scopes : List Scope) : Prop where
  conflict : ∀ e, s.fault? = some e → ∃ c, e = .conflict c
  exact : s.fault? = none ↔ ∀ u ∈ scopes, u.Unique

namespace Checks

variable {a b : Script} {us : List Scope}

lemma of_no_fault (h : a.fault? = none) : Checks a [] := ⟨by simp [h], by simp [h]⟩

lemma congr (h : Checks a us) (he : b.fault? = a.fault?) : Checks b us :=
  ⟨he ▸ h.conflict, he ▸ h.exact⟩

end Checks

/-- What comes of elements that are registered where `held` is in use: the check is exact, and
without a conflict all of it is in use then. -/
structure Walks {σ : Type} (Holds : σ → Scope → Prop) (held uses : Scope) (scopes : List Scope)
    (r : Script × σ) : Prop where
  checks : Checks r.1 ((held ++ uses) :: scopes)
  holds : r.1.fault? = none → Holds r.2 (held ++ uses)

/-- The element is registered with what it uses, unless there is a conflict. -/
structure Registers {σ α : Type} (Holds : σ → Scope → Prop)
    (register : σ → α → σ × Option Rejection) (uses : α → Scope) (a : α) : Prop where
  tracks : ∀ ⦃s u⦄, Holds s u → u.Unique → Tracks Holds u (uses a) (register s a)
  conflict : ∀ s r, (register s a).2 = some r → ∃ c, r = .conflict c

lemma Registers.rejecting {σ α : Type} {Holds : σ → Scope → Prop}
    {register : σ → α → σ × Option Conflict} {uses : α → Scope} {a : α}
    (h : ∀ ⦃s u⦄, Holds s u → u.Unique → Tracks Holds u (uses a) (register s a)) :
    Registers Holds (fun s a => rejecting (register s a)) uses a := by
  refine ⟨fun s u hs hu => (h hs hu).rejecting, fun s r hr => ?_⟩
  obtain ⟨c, -, rfl⟩ := Option.map_eq_some_iff.1 hr
  exact ⟨c, rfl⟩

namespace Walks

variable {σ τ α : Type} {Holds : σ → Scope → Prop} {held a b : Scope} {us vs : List Scope}

lemma exact {r : Script × σ} (h : Walks Holds held a us r) :
    r.1.fault? = none ↔ (held ++ a).Unique ∧ ∀ u ∈ us, u.Unique := by
  rw [h.checks.exact, List.forall_mem_cons]

lemma nil {s : σ} (hs : Holds s held) (hu : held.Unique) : Walks Holds held {} [] ([], s) := by
  refine ⟨⟨by simp, ?_⟩, fun _ => by simpa using hs⟩
  simpa using hu

lemma andThen {Holds' : τ → Scope → Prop} {r : Script × σ} {q : Script × τ}
    (hr : Walks Holds held a us r)
    (hq : Holds r.2 (held ++ a) → (held ++ a).Unique → Walks Holds' (held ++ a) b vs q) :
    Walks Holds' held (a ++ b) (us ++ vs) (r.1 ++ q.1, q.2) := by
  by_cases hf : r.1.fault? = none
  · obtain ⟨hu, hus⟩ := hr.exact.1 hf
    have hw := hq (hr.holds hf) hu
    have he : Script.fault? (r.1 ++ q.1) = q.1.fault? := by simp [hf]
    refine ⟨⟨?_, ?_⟩, ?_⟩
    · rw [he]
      exact hw.checks.conflict
    · rw [he, hw.exact, Scope.append_assoc, List.forall_mem_cons, List.forall_mem_append,
        and_iff_right hus]
    · rw [he, ← Scope.append_assoc]
      exact hw.holds
  · obtain ⟨e, he⟩ := Option.ne_none_iff_exists'.1 hf
    have ha : Script.fault? (r.1 ++ q.1) = some e := by simp [he]
    refine ⟨⟨?_, ?_⟩, ?_⟩
    · rw [ha, ← he]
      exact hr.checks.conflict
    · rw [ha, ← Scope.append_assoc, List.forall_mem_cons, List.forall_mem_append]
      refine ⟨by simp, fun ⟨hu, hus, _⟩ => ?_⟩
      exact absurd (hr.exact.2 ⟨(Scope.unique_append.1 hu).1, hus⟩) hf
    · simp [ha]

/-- An element takes part in the scope with what it uses, and is checked for the scopes
inside of it. -/
lemma single {r : σ × Option Rejection} {s : Script} (h : Tracks Holds held a r)
    (hc : ∀ q, r.2 = some q → ∃ c, q = .conflict c) (hs : Checks s us) :
    Walks Holds held a us (guard r.2 ++ s, r.1) := by
  have hg : Script.fault? (guard r.2 ++ s) = (r.2.map .ofRejection).or s.fault? := by
    rw [Script.fault?_append, fault?_guard]
  have ha := h.accepted
  obtain ⟨t, _ | q⟩ := r
  · have hu := ha.1 rfl
    refine ⟨⟨?_, ?_⟩, fun _ => h.holds rfl⟩
    · rw [hg]
      exact hs.conflict
    · rw [hg, List.forall_mem_cons, and_iff_right hu]
      exact hs.exact
  · refine ⟨⟨?_, ?_⟩, ?_⟩
    · rw [hg]
      intro e he
      obtain ⟨c, rfl⟩ := hc q rfl
      exact ⟨c, (Option.some.inj he).symm⟩
    · rw [hg, List.forall_mem_cons, ← ha]
      simp
    · simp [hg]

lemma registered {register : σ → α → σ × Option Rejection} {uses : α → Scope} {script : α → Script}
    {scopes : α → List Scope} {s : σ} {as : List α} (hr : ∀ a ∈ as, Registers Holds register uses a)
    (hs : Holds s held) (hu : held.Unique) (h : ∀ a ∈ as, Checks (script a) (scopes a)) :
    Walks Holds held (Scope.all uses as) (as.flatMap scopes) (registered register script s as) := by
  induction as generalizing s held with
  | nil => exact .nil hs hu
  | cons a as ih =>
    rw [registered_cons, Scope.all_cons, List.flatMap_cons]
    obtain ⟨hra, hras⟩ := List.forall_mem_cons.1 hr
    obtain ⟨ha, has⟩ := List.forall_mem_cons.1 h
    exact (single (hra.tracks hs hu) (hra.conflict s) ha).andThen fun hs hu => ih hras hs hu has

lemma registered_leaves {register : σ → α → σ × Option Rejection} {uses : α → Scope}
    {script : α → Script} {s : σ} {as : List α} (hr : ∀ a ∈ as, Registers Holds register uses a)
    (hs : Holds s held) (hu : held.Unique) (h : ∀ a ∈ as, (script a).fault? = none) :
    Walks Holds held (Scope.all uses as) [] (Print.registered register script s as) := by
  have hn : (as.flatMap fun _ => ([] : List Scope)) = [] := by simp
  rw [← hn]
  exact registered hr hs hu fun a ha => .of_no_fault (h a ha)

end Walks

end Print

/-! ### Elements -/

namespace Usage

lemma FieldScope.registers_reservation {r : Reservation} (hr : ∀ range ∈ r.ranges, range.IsWhole) :
    Registers Holds registerReservation Reservation.uses r := by
  refine ⟨fun s u h hu => tracks_reservation h hu hr, fun s q hq => ?_⟩
  rw [registerReservation, r.reservedNumbers_eq, if_pos hr] at hq
  obtain ⟨c, -, rfl⟩ := Option.map_eq_some_iff.1 hq
  exact ⟨c, rfl⟩

lemma FieldScope.registers_identity {α : Type} (identity : α → FieldIdentity) (a : α) :
    Registers Holds (fun s a => rejecting (s.register (identity a)))
      (fun a => identityUses (identity a)) a :=
  .rejecting fun _ _ h hu => tracks_register h hu (identity a)

end Usage

namespace MemberScope

/-- Fields and types are held apart. -/
structure Holds (s : MemberScope) (u : Scope) : Prop where
  fields : s.fields.Holds { u with types := [] }
  types : s.types.Holds u

variable {s : MemberScope} {u a : Scope}

lemma tracks_fields {r : FieldScope × Option Conflict} (hs : s.Holds u) (hu : u.Unique)
    (ha : a.types = []) (h : Tracks FieldScope.Holds { u with types := [] } a r) :
    Tracks Holds u a ({ s with fields := r.1 }, r.2) := by
  have ht : (u ++ a).types = u.types := by simp [Scope.append_def, ha]
  constructor
  · rw [h.accepted]
    constructor
    · intro hn
      exact ⟨hn.names, hn.numbers, ht ▸ hu.types⟩
    · intro hn
      refine ⟨hn.names, hn.numbers, ?_⟩
      simp [Scope.append_def, ha]
  · intro hr
    have hf := h.holds hr
    refine ⟨⟨hf.names, hf.numbers, rfl⟩, fun name => ?_⟩
    rw [ht]
    exact hs.types name

lemma tracks_types (hs : s.Holds u) (hu : u.Unique) (name : String) :
    Tracks Holds u { types := [name] } (s.registerType name) := by
  have h := TypeScope.tracks_register hs.types hu name
  refine ⟨h.accepted, fun hr => ⟨?_, h.holds hr⟩⟩
  simpa [registerType, Scope.append_def] using hs.fields

lemma holds_of_fields {f : FieldScope} (h : f.Holds u) (owner : Option String) :
    Holds ⟨f, { owner }⟩ u := by
  have hu : { u with types := [] } = u := by rw [← h.types]
  refine ⟨hu ▸ h, ?_⟩
  rw [← hu]
  exact TypeScope.holds_empty owner

end MemberScope

lemma Member.registers (m : Member) :
    Registers MemberScope.Holds Member.register Member.uses m := by
  refine .rejecting fun s u hs hu => ?_
  have hv : ({ u with types := [] } : Scope).Unique := ⟨hu.names, hu.numbers, List.nodup_nil⟩
  cases m with
  | field f =>
    exact MemberScope.tracks_fields hs hu rfl (FieldScope.tracks_register hs.fields hv f.identity)
  | map f =>
    exact MemberScope.tracks_fields hs hu rfl (FieldScope.tracks_register hs.fields hv f.identity)
  | oneof o =>
    have h := FieldScope.tracks_registerAll hs.fields hv (⟨o.name, none⟩ :: o.memberIdentities)
    have hm : Scope.all FieldScope.identityUses (⟨o.name, none⟩ :: o.memberIdentities) =
        Member.uses (.oneof o) := by
      rw [Scope.all_cons, Oneof.memberIdentities, Scope.all_map]
      rfl
    have ht : (Member.uses (.oneof o)).types = [] := by
      simp [Member.uses, Scope.append_def, Scope.all, Field.uses]
    exact MemberScope.tracks_fields hs hu ht (hm ▸ h)
  | message m => exact MemberScope.tracks_types hs hu m.name
  | enum e => exact MemberScope.tracks_types hs hu e.name

lemma Declaration.registers (d : Declaration) :
    Registers TypeScope.Holds Declaration.register Declaration.uses d :=
  .rejecting fun _ _ h hu => TypeScope.tracks_register h hu d.typeName

end ProtoSchema
