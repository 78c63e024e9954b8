import ProtoSchema.Proofs.Ledger

/-!
Registrations in any order.

Which registrations an empty scope accepts depends on the names and numbers that occur in them, and
the scope that results on the entries that are made; neither depends on the order.
-/

namespace ProtoSchema.Usage

/-- The names and numbers that occur, each as often as it does. -/
def Registration.uses : Registration → Scope
  | .field f => FieldScope.identityUses f
  | .group name members => { names := [name] } ++ Scope.all FieldScope.identityUses members
  | .reservation numbers names => { names, numbers }

namespace Ledger

lemma uses_entries (r : Registration) : uses r.entries = r.uses := by
  cases r with
  | field f => exact Scope.append_empty (FieldScope.identityUses f)
  | group name members =>
    rw [Registration.entries, uses_cons, uses, Scope.all_map]
    rfl
  | reservation numbers names =>
    rw [Registration.entries, uses_append, uses, uses, Scope.all_map, Scope.all_map]
    simp [Scope.all, Entry.uses, Registration.uses, Scope.append_def]

lemma uses_flatMap (rs : List Registration) :
    uses (rs.flatMap Registration.entries) = Scope.all Registration.uses rs := by
  induction rs with
  | nil => rfl
  | cons r rs ih => rw [List.flatMap_cons, uses_append, uses_entries, ih, Scope.all_cons]

/-- No type names are registered here, so names and numbers are all there is to be unique. -/
lemma unique_all_iff (rs : List Registration) :
    (Scope.all Registration.uses rs).Unique ↔
      (Scope.all Registration.uses rs).names.Nodup ∧
      (Scope.all Registration.uses rs).numbers.Nodup := by
  have ht : (Scope.all Registration.uses rs).types = [] := by
    rw [← uses_flatMap]
    exact types_uses _
  constructor
  · exact fun h => ⟨h.names, h.numbers⟩
  · exact fun ⟨hn, hm⟩ => ⟨hn, hm, ht ▸ List.nodup_nil⟩

lemma enter_of_unique {l es : Ledger} (h : (l.uses ++ uses es).Unique) : l.enter es = l ++ es := by
  induction es generalizing l with
  | nil => simp [enter]
  | cons e es ih =>
    rw [uses_cons, ← Scope.append_assoc] at h
    rw [enter, if_pos (Scope.unique_append.1 h).1, ih (by rwa [uses_concat])]
    simp

end Ledger

namespace FieldScope

variable {s t : FieldScope} {l m : Ledger}

lemma takeAll_eq (s : FieldScope) (rs : List Registration) :
    s.takeAll rs = s.recordAll (rs.flatMap Registration.entries) := by
  induction rs generalizing s with
  | nil => rfl
  | cons r rs ih =>
    rw [takeAll, List.flatMap_cons, recordAll_append, take_eq]
    rcases s.recordAll r.entries with ⟨s, _ | c⟩
    · exact ih s
    · rfl

/-- Scopes that keep the same entries are the same. -/
lemma Keeps.ext (hs : s.Keeps l) (ht : t.Keeps m) (h : ∀ e, e ∈ l ↔ e ∈ m) : s = t := by
  obtain ⟨names, numbers, reservedNames, reservedNumbers⟩ := s
  obtain ⟨names', numbers', reservedNames', reservedNumbers'⟩ := t
  congr 1
  · refine Std.ExtTreeMap.ext_getElem? fun name => Option.ext fun number => ?_
    rw [hs.names name number, ht.names name number, h, h]
  · refine Std.ExtTreeMap.ext_getElem? fun n => Option.ext fun name => ?_
    rw [hs.numbers n name, ht.numbers n name]
    simp only [h]
  · exact Std.ExtTreeSet.ext_mem fun name => by rw [hs.reservedNames, ht.reservedNames, h]
  · exact Std.ExtTreeSet.ext_mem fun n => by rw [hs.reservedNumbers, ht.reservedNumbers, h]

lemma recordAll_eq_none (h : s.Keeps l) (es : Ledger) :
    (s.recordAll es).2 = none ↔ (l.uses ++ Ledger.uses es).Unique := by
  induction es generalizing s l with
  | nil => simpa [recordAll, Ledger.uses] using h.unique
  | cons e es ih =>
    rw [Ledger.uses_cons, ← Scope.append_assoc, recordAll]
    cases hc : s.entryConflict? e with
    | none =>
      have hu := (entryConflict?_eq_none h e).1 hc
      rw [← Ledger.uses_concat]
      exact ih (h.recordEntry hu)
    | some c =>
      have hu := mt (entryConflict?_eq_none h e).2 (by simp [hc])
      simpa using fun hn => hu (Scope.unique_append.1 hn).1

lemma takeAll_empty_eq_none (rs : List Registration) :
    (({} : FieldScope).takeAll rs).2 = none ↔
      (Scope.all Registration.uses rs).names.Nodup ∧
      (Scope.all Registration.uses rs).numbers.Nodup := by
  rw [← Ledger.unique_all_iff, takeAll_eq, recordAll_eq_none keeps_empty, Ledger.uses_flatMap]
  exact Iff.rfl

lemma keeps_takeAll_empty {rs : List Registration} (h : (({} : FieldScope).takeAll rs).2 = none) :
    (({} : FieldScope).takeAll rs).1.Keeps (rs.flatMap Registration.entries) := by
  have hu := (Ledger.unique_all_iff rs).2 ((takeAll_empty_eq_none rs).1 h)
  have hk := keeps_empty.recordAll (rs.flatMap Registration.entries)
  rw [Ledger.enter_of_unique (by rw [Ledger.uses_flatMap]; exact hu)] at hk
  rw [takeAll_eq]
  exact hk

/-- Registrations are accepted if and only if no name and no number occurs twice, in whichever order
they are made, and the scope that results does not depend on the order either. -/
theorem takeAll_perm (rs : List Registration) :
    let run := ({} : FieldScope).takeAll
    let all := Scope.all Registration.uses rs
    ((run rs).2 = none ↔ all.names.Nodup ∧ all.numbers.Nodup) ∧
      ((run rs).2 = none ↔ ∀ rs', rs'.Perm rs → (run rs').2 = none) ∧
      ((run rs).2 = none → ∀ rs', rs'.Perm rs → (run rs').1 = (run rs).1) := by
  intro run all
  have hp : ∀ rs', rs'.Perm rs → (run rs).2 = none → (run rs').2 = none := by
    intro rs' hr h
    obtain ⟨hn, hm⟩ := (takeAll_empty_eq_none rs).1 h
    refine (takeAll_empty_eq_none rs').2 ⟨?_, ?_⟩
    · exact (hr.flatMap_right fun r : Registration => r.uses.names).nodup_iff.2 hn
    · exact (hr.flatMap_right fun r : Registration => r.uses.numbers).nodup_iff.2 hm
  refine ⟨takeAll_empty_eq_none rs, ⟨fun h rs' hr => hp rs' hr h, fun h => h rs (.refl rs)⟩, ?_⟩
  intro h rs' hr
  refine (keeps_takeAll_empty (hp rs' hr h)).ext (keeps_takeAll_empty h) fun e => ?_
  exact (hr.flatMap_right Registration.entries).mem_iff

/-- A reservation is registered behind the fields, and then in front of them. -/
theorem takeAll_perm_reverse :
    let run := ({} : FieldScope).takeAll
    let rs : List Registration :=
      [.field ⟨"c", none⟩, .group "choice" [⟨"a", some 1⟩, ⟨"b", some 2⟩],
        .reservation [4, 5] ["old"]]
    (run rs).2 = none ∧ (run rs.reverse).2 = none ∧ (run rs.reverse).1 = (run rs).1 := by
  intro run rs
  obtain ⟨-, hall, hsame⟩ := takeAll_perm rs
  have h : (run rs).2 = none := by decide +kernel
  exact ⟨h, hall.1 h _ rs.reverse_perm, hsame h _ rs.reverse_perm⟩

end FieldScope

end ProtoSchema.Usage
