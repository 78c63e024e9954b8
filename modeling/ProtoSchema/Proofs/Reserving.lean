import ProtoSchema.Proofs.Registration
import ProtoSchema.Session.Action

/-!
What a reservation takes.

The numbers of a reservation are made distinct when it is asked for them, its names where its draft
is started. So a reservation that comes from a draft never conflicts with itself; one that is made
from parts does if it lists a name twice.
-/

namespace ProtoSchema

open Build Session Usage

/-! ### Reservations from drafts -/

namespace Build

lemma all_text (names : List String) (i : Nat) :
    Checked.all Read.text i (names.map Value.text) = .sound names := by
  induction names generalizing i with
  | nil => rfl
  | cons name names ih =>
    rw [List.map_cons, Checked.all, ih]
    rfl

lemma read_texts (names : List String) : Read.texts (.texts names) = .sound names :=
  all_text names 0

namespace ReservationDraft

/-- The drafts that are started from items, and what actions make of them. -/
inductive Reached : ReservationDraft → Prop
  | ofItems {items : List Value} {d : ReservationDraft}
    (h : ReservationDraft.ofItems items = .ok d) : Reached d
  | changed {d e : ReservationDraft} {a : Action} {args : List Value} {s t : State} (hd : Reached d)
    (h : Session.changed (.reservation d) a args s = .ok (.reservation e) t) : Reached e

variable {d e : ReservationDraft}

lemma nodup_names_ofItems {items : List Value} (h : ReservationDraft.ofItems items = .ok d) :
    d.names.Nodup := by
  simp only [ReservationDraft.ofItems] at h
  split at h
  · cases h
  · split at h
    · cases h
    · split at h <;> cases h
      exact nodup_distinct _

lemma names_addRanges {ranges : List Value} {s t : State}
    (h : (Draft.reservation <$> Run.ofExcept .refused (d.addRanges ranges) : Run Draft) s =
      .ok (.reservation e) t) : e.names = d.names := by
  cases hr : d.addRanges ranges with
  | error r => rw [hr] at h; cases h
  | ok e' =>
    rw [hr] at h
    cases h
    unfold ReservationDraft.addRanges at hr
    split at hr <;> cases hr
    rfl

/-- No action changes which names are reserved. -/
lemma names_changed {a : Action} {args : List Value} {s t : State}
    (h : changed (.reservation d) a args s = .ok (.reservation e) t) : e.names = d.names := by
  unfold changed at h
  split at h
  -- a comment, several ranges and a single range; no other action takes the draft of a reservation
  case h_1 => cases h; rfl
  case h_5 => exact names_addRanges h
  case h_6 =>
    change EStateM.bind _ _ s = _ at h
    unfold EStateM.bind at h
    split at h
    · exact names_addRanges h
    · cases h
  all_goals cases h

lemma Reached.nodup_names (h : Reached d) : d.names.Nodup := by
  induction h with
  | ofItems h => exact nodup_names_ofItems h
  | changed _ h ih => exact names_changed h ▸ ih

lemma names_of_build {r : Reservation} (h : d.build = .ok (.reservation r)) :
    r.names = d.names := by
  obtain ⟨r', hr, hn⟩ := Checked.toNode_eq_ok.1 h
  cases hn
  have hp := (Checked.verify_eq_sound.1 hr).1
  simp only [Checked.seq_eq_sound, Checked.map_eq_sound] at hp
  obtain ⟨_, _, ⟨_, _, ⟨_, _, ⟨names, hnames, rfl⟩, _, rfl⟩, _, rfl⟩, _, rfl⟩ := hp
  change (Read.texts (.texts d.names)).within (.part "field_names") = .sound names at hnames
  rw [Checked.within_eq_sound, read_texts] at hnames
  cases hnames
  rfl

end ReservationDraft

end Build

/-! ### Registered on its own -/

namespace Reservation

/-- The numbers of a reservation cannot be listed if a bound of one of its ranges is a floating
point number, and for no other reason. -/
lemma reservedNumbers_eq_error {r : Reservation} {e : ListingError} :
    r.reservedNumbers = .error e ↔ e = .realBound ∧ ∃ range ∈ r.ranges, ¬ range.IsWhole := by
  rw [reservedNumbers_eq]
  by_cases h : ∀ range ∈ r.ranges, range.IsWhole
  · rw [if_pos h]
    refine ⟨fun he => (by cases he), ?_⟩
    rintro ⟨-, range, hm, hr⟩
    exact absurd (h range hm) hr
  · rw [if_neg h, Except.error.injEq, eq_comm]
    exact ⟨fun he => ⟨he, by simpa using h⟩, fun he => he.1⟩

lemma nodup_of_reservedNumbers {r : Reservation} {ns : List Int} (h : r.reservedNumbers = .ok ns) :
    ns.Nodup := by
  rw [reservedNumbers_eq] at h
  split at h <;> cases h
  exact nodup_distinct _

lemma mem_of_reservedNumbers {r : Reservation} {ns : List Int} (h : r.reservedNumbers = .ok ns)
    {n : Int} : n ∈ ns ↔ n ∈ r.numbers ∨ ∃ range ∈ r.ranges, range.Covers n := by
  rw [reservedNumbers_eq] at h
  split at h <;> cases h
  simp [FieldRange.mem_covered]

/-- The names a reservation lists, and its numbers spelled out, are unique if no name is
listed twice. -/
lemma unique_reserved_iff {r : Reservation} {ns : List Int} (h : r.reservedNumbers = .ok ns) :
    (({} : Scope) ++ { names := r.names, numbers := ns }).Unique ↔ r.names.Nodup := by
  rw [Scope.empty_append]
  exact ⟨fun hu => hu.names, fun hn => ⟨hn, nodup_of_reservedNumbers h, List.nodup_nil⟩⟩

/-- The numbers of a reservation are listed unless it has a range with a floating point bound; one
that has is not registered, and nothing of it is. Otherwise each number that the reservation states
is listed once, and it takes just these and its names. It is accepted then unless it lists a name
twice, which one from a draft never does. -/
theorem reserved_exactly (r : Reservation) :
    let states (n : Int) := n ∈ r.numbers ∨ ∃ range ∈ r.ranges, range.Covers n
    let run := ({} : FieldScope).registerReservation r
    (∀ e, r.reservedNumbers = .error e ↔ e = .realBound ∧ ∃ range ∈ r.ranges, ¬ range.IsWhole) ∧
      (∀ e, r.reservedNumbers = .error e → run = ({}, some (.unlisted e))) ∧
      (∀ ns, r.reservedNumbers = .ok ns → ns.Nodup ∧ (∀ n, n ∈ ns ↔ states n) ∧
        (run.2 = none ↔ r.names.Nodup) ∧
        (run.2 = none → ∀ f, (run.1.conflict? f).isSome ↔
          f.name ∈ r.names ∨ ∃ n, f.number = some n ∧ states n)) ∧
      r.reservedNames = r.names ∧
      ∀ d, ReservationDraft.Reached d → d.build = .ok (.reservation r) → r.names.Nodup := by
  intro states run
  refine ⟨fun e => reservedNumbers_eq_error, fun e he => ?_, fun ns hns => ?_, rfl,
    fun d hd hb => ?_⟩
  · show FieldScope.registerReservation {} r = _
    rw [FieldScope.registerReservation, he]
  · have hrun : run = rejecting (({} : FieldScope).reserve ns r.reservedNames) := by
      show FieldScope.registerReservation {} r = _
      rw [FieldScope.registerReservation, hns]
    have ht : Tracks FieldScope.Holds {} { names := r.names, numbers := ns } run :=
      hrun ▸ (FieldScope.tracks_reserve FieldScope.holds_empty .empty ns r.reservedNames).rejecting
    refine ⟨nodup_of_reservedNumbers hns, fun n => mem_of_reservedNumbers hns,
      ht.accepted.trans (unique_reserved_iff hns), fun hr f => ?_⟩
    have hh := ht.holds hr
    rw [← Option.ne_none_iff_isSome, ne_eq, FieldScope.conflict?_eq_none, hh.names]
    simp only [hh.numbers, Scope.empty_append, mem_of_reservedNumbers hns]
    grind
  · rw [ReservationDraft.names_of_build hb]
    exact hd.nodup_names

/-- Numbers and ranges that overlap, and a range between floating point numbers. -/
theorem reserved_exactly_overlapping :
    let r : Reservation := { numbers := [3, 2], ranges := [
      ⟨.whole 2, .whole 4, by decide, by decide⟩, ⟨.whole 4, .whole 6, by decide, by decide⟩] }
    let real : Reservation := { ranges := [
      ⟨.real ⟨0x3ff8000000000000⟩, .real ⟨0x400c000000000000⟩, by decide, by decide⟩] }
    let run := ({} : FieldScope).registerReservation r
    r.reservedNumbers = .ok [3, 2, 4, 5, 6] ∧ run.2 = none ∧
      (run.1.conflict? ⟨"a", some 5⟩).isSome ∧
      ({} : FieldScope).registerReservation real = ({}, some (.unlisted .realBound)) := by
  intro r real run
  obtain ⟨-, -, hlisted, -⟩ := reserved_exactly r
  have hn : r.reservedNumbers = .ok [3, 2, 4, 5, 6] := by decide +kernel
  obtain ⟨-, hmem, haccepted, hconflict⟩ := hlisted _ hn
  have hr : run.2 = none := haccepted.2 List.nodup_nil
  obtain ⟨herror, hrefused, -⟩ := reserved_exactly real
  refine ⟨hn, hr, (hconflict hr _).2 (.inr ⟨5, rfl, (hmem 5).1 (by decide)⟩), ?_⟩
  exact hrefused _ ((herror _).2 ⟨rfl, _, List.mem_singleton_self _, by decide⟩)

/-- Made from parts, a reservation may list a name twice, and then conflicts with itself. -/
theorem repeated_name_conflicts :
    let r : Reservation := { names := ["a", "a"] }
    Reservation.ofParts [("field_names", .texts ["a", "a"])] = .sound r ∧
      ¬ r.reservedNames.Nodup ∧
      (({} : FieldScope).registerReservation r).2 = some (.conflict (.reservedName "a")) := by
  intro r
  exact ⟨rfl, by decide, by decide +kernel⟩

end Reservation

end ProtoSchema
