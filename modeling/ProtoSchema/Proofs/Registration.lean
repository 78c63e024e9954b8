import ProtoSchema.Proofs.Scope

/-!
Registration accepts what is unique.

A scope in the making holds what was registered with it. It takes an element if and only if what it
holds and what the element uses are unique together, and then it holds both.
-/

namespace ProtoSchema.Usage

/-- The second registration follows unless the first is refused. -/
def andThen {σ : Type} (r : σ × Option Conflict) (next : σ → σ × Option Conflict) :
    σ × Option Conflict :=
  match r with
  | (s, some c) => (s, some c)
  | (s, none) => next s

/-- What uses `uses` is registered where `held` is in use. -/
structure Tracks {σ ε : Type} (Holds : σ → Scope → Prop) (held uses : Scope)
    (r : σ × Option ε) : Prop where
  accepted : r.2 = none ↔ (held ++ uses).Unique
  holds : r.2 = none → Holds r.1 (held ++ uses)

namespace Tracks

variable {σ : Type} {Holds : σ → Scope → Prop} {held a b : Scope} {s : σ} {r : σ × Option Conflict}

lemma nothing (h : Holds s held) (hu : held.Unique) :
    Tracks Holds held {} (s, (none : Option Conflict)) := by
  constructor
  · simpa using hu
  · simpa using h

lemma taken (h : Holds s (held ++ a)) (hu : (held ++ a).Unique) :
    Tracks Holds held a (s, (none : Option Conflict)) :=
  ⟨by simpa using hu, fun _ => h⟩

lemma refused {c : Conflict} (h : ¬ (held ++ a).Unique) : Tracks Holds held a (s, some c) :=
  ⟨by simp [h], by simp⟩

lemma andThen (h : Tracks Holds held a r) {next : σ → σ × Option Conflict}
    (hn : ∀ s, Holds s (held ++ a) → (held ++ a).Unique → Tracks Holds (held ++ a) b (next s)) :
    Tracks Holds held (a ++ b) (andThen r next) := by
  obtain ⟨s, _ | c⟩ := r
  · have hb := hn s (h.holds rfl) (h.accepted.1 rfl)
    have he : held ++ (a ++ b) = held ++ a ++ b := (Scope.append_assoc held a b).symm
    exact ⟨he ▸ hb.accepted, he ▸ hb.holds⟩
  · refine refused fun hu => ?_
    rw [← Scope.append_assoc] at hu
    simpa using h.accepted.2 (Scope.unique_append.1 hu).1

lemma congr (h : Tracks Holds held a r) (hu : (held ++ a).Unique ↔ (held ++ b).Unique)
    (hh : ∀ s, Holds s (held ++ a) → Holds s (held ++ b)) : Tracks Holds held b r :=
  ⟨h.accepted.trans hu, fun hr => hh _ (h.holds hr)⟩

lemma rejecting (h : Tracks Holds held a r) : Tracks Holds held a (rejecting r) :=
  ⟨Option.map_eq_none_iff.trans h.accepted, fun hr => h.holds (Option.map_eq_none_iff.1 hr)⟩

end Tracks

/-! ### Fields and reservations -/

namespace FieldScope

/-- The names and numbers in use are those of a scope without type names. -/
structure Holds (s : FieldScope) (u : Scope) : Prop where
  names : ∀ name, s.names[name]? = none ↔ name ∉ u.names
  numbers : ∀ n, s.numbers[n]? = none ↔ n ∉ u.numbers
  types : u.types = []

lemma holds_empty : Holds {} {} := ⟨by simp, by simp, rfl⟩

/-- The name of a field, and its number if it has one. -/
def identityUses (f : FieldIdentity) : Scope := { names := [f.name], numbers := f.number.toList }

variable {s : FieldScope} {u : Scope}

lemma unique_append_identity (hu : u.Unique) (f : FieldIdentity) :
    (u ++ identityUses f).Unique ↔
      f.name ∉ u.names ∧ ∀ n, f.number = some n → n ∉ u.numbers := by
  have hv : (identityUses f).Unique := by
    refine ⟨List.nodup_singleton _, ?_, List.nodup_nil⟩
    cases h : f.number <;> simp [identityUses, h]
  rw [Scope.unique_append, and_iff_right hu, and_iff_right hv]
  cases h : f.number <;> simp [identityUses, h]

lemma conflict?_eq_none_iff (h : s.Holds u) (hu : u.Unique) (f : FieldIdentity) :
    s.conflict? f = none ↔ (u ++ identityUses f).Unique := by
  rw [conflict?_eq_none, unique_append_identity hu, h.names]
  simp only [h.numbers]

lemma tracks_register (h : s.Holds u) (hu : u.Unique) (f : FieldIdentity) :
    Tracks Holds u (identityUses f) (s.register f) := by
  have hc := conflict?_eq_none_iff h hu f
  unfold register
  split
  · next c hs => exact .refused fun hn => by simp [hc.2 hn] at hs
  · next hs =>
    refine .taken ⟨fun name => ?_, fun n => ?_, ?_⟩ (hc.1 hs)
    · rw [names_recordField]
      by_cases hn : f.name = name
      · simp [hn, identityUses, Scope.append_def]
      · simp [hn, Ne.symm hn, identityUses, Scope.append_def, h.names]
    · rw [numbers_recordField]
      by_cases hn : f.number = some n
      · simp [hn, identityUses, Scope.append_def]
      · simp [hn, identityUses, Scope.append_def, h.numbers]
    · simp [identityUses, Scope.append_def, h.types]

lemma registerAll_cons (s : FieldScope) (f : FieldIdentity) (fs : List FieldIdentity) :
    s.registerAll (f :: fs) = andThen (s.register f) (·.registerAll fs) := by
  rw [registerAll]
  rcases s.register f with ⟨s, _ | c⟩ <;> rfl

lemma tracks_registerAll (h : s.Holds u) (hu : u.Unique) (fs : List FieldIdentity) :
    Tracks Holds u (Scope.all identityUses fs) (s.registerAll fs) := by
  induction fs generalizing s u with
  | nil => exact .nothing h hu
  | cons f fs ih =>
    rw [Scope.all_cons, registerAll_cons]
    exact (tracks_register h hu f).andThen fun s hs hu => ih hs hu

/-! ### Reservations -/

lemma unique_append_number (hu : u.Unique) (n : Int) :
    (u ++ { numbers := [n] }).Unique ↔ n ∉ u.numbers := by
  have hv : ({ numbers := [n] } : Scope).Unique :=
    ⟨List.nodup_nil, List.nodup_singleton n, List.nodup_nil⟩
  rw [Scope.unique_append, and_iff_right hu, and_iff_right hv]
  simp

lemma unique_append_name (hu : u.Unique) (name : String) :
    (u ++ { names := [name] }).Unique ↔ name ∉ u.names := by
  have hv : ({ names := [name] } : Scope).Unique :=
    ⟨List.nodup_singleton name, List.nodup_nil, List.nodup_nil⟩
  rw [Scope.unique_append, and_iff_right hu, and_iff_right hv]
  simp

lemma reserveNumbers_cons (s : FieldScope) (n : Int) (ns : List Int) :
    s.reserveNumbers (n :: ns) = andThen (s.reserveNumbers [n]) (·.reserveNumbers ns) := by
  simp only [reserveNumbers]
  cases s.numberConflict? n <;> rfl

lemma numberConflict?_eq_none_iff (h : s.Holds u) (hu : u.Unique) (n : Int) :
    s.numberConflict? n = none ↔ (u ++ { numbers := [n] }).Unique := by
  rw [numberConflict?_eq_none, unique_append_number hu, h.numbers]

lemma tracks_reserveNumber (h : s.Holds u) (hu : u.Unique) (n : Int) :
    Tracks Holds u { numbers := [n] } (s.reserveNumbers [n]) := by
  have hc := numberConflict?_eq_none_iff h hu n
  unfold reserveNumbers
  split
  · next c hs => exact .refused fun hn => by simp [hc.2 hn] at hs
  · next hs =>
    refine .taken ⟨fun name => ?_, fun m => ?_, ?_⟩ (hc.1 hs)
    · simp [Scope.append_def, h.names]
    · rw [numbers_recordNumber]
      by_cases hn : n = m
      · simp [hn, Scope.append_def]
      · simp [hn, Ne.symm hn, Scope.append_def, h.numbers]
    · simp [Scope.append_def, h.types]

lemma tracks_reserveNumbers (h : s.Holds u) (hu : u.Unique) (ns : List Int) :
    Tracks Holds u { numbers := ns } (s.reserveNumbers ns) := by
  induction ns generalizing s u with
  | nil => exact .nothing h hu
  | cons n ns ih =>
    rw [reserveNumbers_cons]
    exact (tracks_reserveNumber h hu n).andThen fun s hs hu => ih hs hu

lemma reserveNames_cons (s : FieldScope) (n : String) (ns : List String) :
    s.reserveNames (n :: ns) = andThen (s.reserveNames [n]) (·.reserveNames ns) := by
  simp only [reserveNames]
  cases s.nameConflict? ⟨n, none⟩ <;> rfl

lemma nameConflict?_eq_none_iff (h : s.Holds u) (hu : u.Unique) (n : String) :
    s.nameConflict? ⟨n, none⟩ = none ↔ (u ++ { names := [n] }).Unique := by
  rw [nameConflict?_eq_none, unique_append_name hu, h.names]

lemma tracks_reserveName (h : s.Holds u) (hu : u.Unique) (n : String) :
    Tracks Holds u { names := [n] } (s.reserveNames [n]) := by
  have hc := nameConflict?_eq_none_iff h hu n
  unfold reserveNames
  split
  · next c hs => exact .refused fun hn => by simp [hc.2 hn] at hs
  · next hs =>
    refine .taken ⟨fun name => ?_, fun m => ?_, ?_⟩ (hc.1 hs)
    · rw [names_recordName]
      by_cases hn : n = name
      · simp [hn, Scope.append_def]
      · simp [hn, Ne.symm hn, Scope.append_def, h.names]
    · simp [Scope.append_def, h.numbers]
    · simp [Scope.append_def, h.types]

lemma tracks_reserveNames (h : s.Holds u) (hu : u.Unique) (ns : List String) :
    Tracks Holds u { names := ns } (s.reserveNames ns) := by
  induction ns generalizing s u with
  | nil => exact .nothing h hu
  | cons n ns ih =>
    rw [reserveNames_cons]
    exact (tracks_reserveName h hu n).andThen fun s hs hu => ih hs hu

lemma reserve_eq (s : FieldScope) (numbers : List Int) (names : List String) :
    s.reserve numbers names = andThen (s.reserveNumbers numbers) (·.reserveNames names) := by
  rw [reserve]
  rcases s.reserveNumbers numbers with ⟨s, _ | c⟩ <;> rfl

lemma tracks_reserve (h : s.Holds u) (hu : u.Unique) (numbers : List Int) (names : List String) :
    Tracks Holds u { names, numbers } (s.reserve numbers names) := by
  have hs : ({ names, numbers } : Scope) = { numbers } ++ { names } := by simp [Scope.append_def]
  rw [reserve_eq, hs]
  exact (tracks_reserveNumbers h hu numbers).andThen fun s hs hu => tracks_reserveNames hs hu names

/-- A reservation is registered with its numbers spelled out. -/
lemma tracks_reservation (h : s.Holds u) (hu : u.Unique) {r : Reservation}
    (hr : ∀ range ∈ r.ranges, range.IsWhole) :
    Tracks Holds u r.uses (s.registerReservation r) := by
  set numbers := distinct (r.numbers ++ r.ranges.flatMap FieldRange.covered)
  have hp : numbers.Perm r.uses.numbers := by
    refine (List.perm_ext_iff_of_nodup (nodup_distinct _) (List.nodup_dedup _)).2 fun n => ?_
    rw [mem_distinct, List.mem_dedup]
  have ht : Tracks Holds u r.uses (s.reserve numbers r.reservedNames) := by
    refine (tracks_reserve h hu numbers r.reservedNames).congr ⟨fun hn => ?_, fun hn => ?_⟩
      fun s hs => ⟨hs.names, fun n => ?_, hs.types⟩
    · exact ⟨hn.names, (hp.append_left _).nodup_iff.1 hn.numbers, hn.types⟩
    · exact ⟨hn.names, (hp.append_left _).nodup_iff.2 hn.numbers, hn.types⟩
    · rw [hs.numbers n]
      exact not_congr (hp.append_left _).mem_iff
  rw [registerReservation, r.reservedNumbers_eq, if_pos hr]
  exact ht.rejecting

end FieldScope

/-! ### Type names -/

namespace TypeScope

/-- The type names in use are those of a scope. -/
def Holds (s : TypeScope) (u : Scope) : Prop := ∀ name, name ∈ s.names ↔ name ∈ u.types

lemma holds_empty (owner : Option String) : Holds { owner } {} := fun name => by simp

lemma tracks_register {s : TypeScope} {u : Scope} (h : s.Holds u) (hu : u.Unique) (name : String) :
    Tracks Holds u { types := [name] } (s.register name) := by
  have hc : s.conflict? name = none ↔ (u ++ { types := [name] }).Unique := by
    have hv : ({ types := [name] } : Scope).Unique :=
      ⟨List.nodup_nil, List.nodup_nil, List.nodup_singleton name⟩
    rw [conflict?_eq_none, h name, Scope.unique_append, and_iff_right hu, and_iff_right hv]
    simp
  constructor
  · rw [← hc, register]
    cases s.conflict? name <;> simp
  · intro _ other
    rw [mem_names_register, h other]
    simp [Scope.append_def, or_comm]

end TypeScope

end ProtoSchema.Usage
