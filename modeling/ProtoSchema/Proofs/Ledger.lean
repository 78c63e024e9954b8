import ProtoSchema.Proofs.Registration
import ProtoSchema.Usage.Request

/-!
What a scope of fields has recorded.

A ledger lists the names and numbers that were registered, one entry after another, and knows
nothing of the collections of a scope. A scope keeps the ledger of all requests made to it since it
was empty, those that met a conflict included; what is said about its collections and its conflicts
is read off the ledger.
-/

namespace ProtoSchema.Usage

/-- What one step of a registration records. -/
inductive Entry where
  | field (f : FieldIdentity)
  | reservedNumber (n : Int)
  | reservedName (name : String)
  deriving DecidableEq, Repr

abbrev Ledger := List Entry

def Entry.uses : Entry → Scope
  | .field f => FieldScope.identityUses f
  | .reservedNumber n => { numbers := [n] }
  | .reservedName name => { names := [name] }

def Registration.entries : Registration → Ledger
  | .field f => [.field f]
  | .group name members => .field ⟨name, none⟩ :: members.map .field
  | .reservation numbers names => numbers.map .reservedNumber ++ names.map .reservedName

namespace Ledger

/-- Everything that the entries use. -/
def uses (l : Ledger) : Scope := Scope.all Entry.uses l

/-- Enters one entry after another, up to the first that uses a name or a number again. -/
def enter (l : Ledger) : Ledger → Ledger
  | [] => l
  | e :: es => if (l.uses ++ e.uses).Unique then enter (l ++ [e]) es else l

def record (l : Ledger) : Request → Ledger
  | .register r => l.enter r.entries
  | .ensureUnused _ => l
  | .reset => []

/-- What requests to an empty scope have recorded. -/
def of (rs : List Request) : Ledger := rs.foldl record []

lemma uses_cons (e : Entry) (es : Ledger) : uses (e :: es) = e.uses ++ uses es :=
  Scope.all_cons Entry.uses e es

lemma uses_append (l m : Ledger) : uses (l ++ m) = l.uses ++ m.uses := by
  simp [uses, Scope.all, Scope.append_def]

lemma uses_concat (l : Ledger) (e : Entry) : uses (l ++ [e]) = l.uses ++ e.uses := by
  rw [uses_append, uses_cons e []]
  exact congrArg (l.uses ++ ·) (Scope.append_empty e.uses)

lemma types_uses (l : Ledger) : l.uses.types = [] := by
  refine List.flatMap_eq_nil_iff.2 fun e _ => ?_
  cases e <;> rfl

lemma mem_names_uses {l : Ledger} {name : String} :
    name ∈ l.uses.names ↔
      (∃ number, .field ⟨name, number⟩ ∈ l) ∨ .reservedName name ∈ l := by
  simp only [uses, Scope.all, List.mem_flatMap]
  constructor
  · rintro ⟨e, he, hn⟩
    cases e with
    | field f =>
      have hf : name = f.name := by simpa [Entry.uses, FieldScope.identityUses] using hn
      exact .inl ⟨f.number, hf ▸ he⟩
    | reservedNumber n => simp [Entry.uses] at hn
    | reservedName name => simp_all [Entry.uses]
  · rintro (⟨number, he⟩ | he)
    · exact ⟨_, he, by simp [Entry.uses, FieldScope.identityUses]⟩
    · exact ⟨_, he, by simp [Entry.uses]⟩

lemma mem_numbers_uses {l : Ledger} {n : Int} :
    n ∈ l.uses.numbers ↔
      (∃ name, .field ⟨name, some n⟩ ∈ l) ∨ .reservedNumber n ∈ l := by
  simp only [uses, Scope.all, List.mem_flatMap]
  constructor
  · rintro ⟨e, he, hn⟩
    cases e with
    | field f =>
      have hf : f.number = some n := by simpa [Entry.uses, FieldScope.identityUses] using hn
      exact .inl ⟨f.name, hf ▸ he⟩
    | reservedNumber n => simp_all [Entry.uses]
    | reservedName name => simp [Entry.uses] at hn
  · rintro (⟨name, he⟩ | he)
    · exact ⟨_, he, by simp [Entry.uses, FieldScope.identityUses]⟩
    · exact ⟨_, he, by simp [Entry.uses]⟩

end Ledger

/-- What a conflict is put down to is in the ledger: a reservation, or a field of this name
and number. -/
def Conflict.Explained (l : Ledger) : Conflict → Prop
  | .reservedName name => .reservedName name ∈ l
  | .usedName name => .field ⟨name, none⟩ ∈ l
  | .usedNumberedName f usedBy => .field ⟨f.name, some usedBy⟩ ∈ l
  | .reservedNumber n => .reservedNumber n ∈ l
  | .usedNumber n usedBy => ∃ name, usedBy = some name ∧ .field ⟨name, some n⟩ ∈ l
  | .usedTypeName _ _ => False

namespace FieldScope

variable {s : FieldScope} {l : Ledger} {e : Entry}

/-! ### Registrations entry by entry -/

def entryConflict? (s : FieldScope) : Entry → Option Conflict
  | .field f => s.conflict? f
  | .reservedNumber n => s.numberConflict? n
  | .reservedName name => s.nameConflict? ⟨name, none⟩

def recordEntry (s : FieldScope) : Entry → FieldScope
  | .field f => s.recordField f
  | .reservedNumber n => s.recordNumber n
  | .reservedName name => s.recordName name

def recordAll (s : FieldScope) : Ledger → Outcome
  | [] => (s, none)
  | e :: es =>
    match s.entryConflict? e with
    | some c => (s, some c)
    | none => (s.recordEntry e).recordAll es

lemma recordAll_append (s : FieldScope) (es fs : Ledger) :
    s.recordAll (es ++ fs) = andThen (s.recordAll es) (·.recordAll fs) := by
  induction es generalizing s with
  | nil => rfl
  | cons e es ih =>
    simp only [List.cons_append, recordAll]
    cases s.entryConflict? e with
    | none => exact ih (s.recordEntry e)
    | some c => rfl

/-- A loop that registers one element after another records one entry for each. -/
lemma eq_recordAll {α : Type} {loop : FieldScope → List α → Outcome} {entry : α → Entry}
    (hnil : ∀ s, loop s [] = (s, none))
    (hcons : ∀ s a as, loop s (a :: as) = andThen (s.recordAll [entry a]) (loop · as))
    (s : FieldScope) (as : List α) : loop s as = s.recordAll (as.map entry) := by
  induction as generalizing s with
  | nil => exact hnil s
  | cons a as ih =>
    have hs : entry a :: as.map entry = [entry a] ++ as.map entry := rfl
    rw [hcons, List.map_cons, hs, recordAll_append]
    exact congrArg (andThen _) (funext ih)

lemma register_eq (s : FieldScope) (f : FieldIdentity) : s.register f = s.recordAll [.field f] := by
  rw [register, recordAll, entryConflict?]
  cases s.conflict? f <;> rfl

lemma registerAll_eq (s : FieldScope) (fs : List FieldIdentity) :
    s.registerAll fs = s.recordAll (fs.map .field) :=
  eq_recordAll (fun _ => rfl) (fun s f fs => by rw [registerAll_cons, register_eq]) s fs

lemma reserveNumbers_eq (s : FieldScope) (ns : List Int) :
    s.reserveNumbers ns = s.recordAll (ns.map .reservedNumber) :=
  eq_recordAll (fun _ => rfl) reserveNumbers_cons s ns

lemma reserveNames_eq (s : FieldScope) (names : List String) :
    s.reserveNames names = s.recordAll (names.map .reservedName) :=
  eq_recordAll (fun _ => rfl) reserveNames_cons s names

/-- A registration records its entries up to the first conflict. -/
lemma take_eq (s : FieldScope) (r : Registration) : s.take r = s.recordAll r.entries := by
  cases r with
  | field f => exact register_eq s f
  | group name members => exact registerAll_eq s (⟨name, none⟩ :: members)
  | reservation numbers names =>
    rw [take, reserve_eq, reserveNumbers_eq, Registration.entries, recordAll_append]
    exact congrArg (andThen _) (funext fun s => reserveNames_eq s names)

/-! ### Scopes and their ledgers -/

/-- The collections hold what the ledger lists, and nothing else. -/
structure Keeps (s : FieldScope) (l : Ledger) : Prop where
  unique : l.uses.Unique
  names : ∀ name number, s.names[name]? = some number ↔
    .field ⟨name, number⟩ ∈ l ∨ number = none ∧ .reservedName name ∈ l
  numbers : ∀ n name, s.numbers[n]? = some name ↔
    (∃ a, name = some a ∧ .field ⟨a, some n⟩ ∈ l) ∨
      name = none ∧ .reservedNumber n ∈ l
  reservedNames : ∀ name, name ∈ s.reservedNames ↔ .reservedName name ∈ l
  reservedNumbers : ∀ n, n ∈ s.reservedNumbers ↔ .reservedNumber n ∈ l

lemma keeps_empty : Keeps {} [] := by
  refine ⟨Scope.Unique.empty, ?_, ?_, ?_, ?_⟩ <;> simp

lemma Keeps.holds (h : s.Keeps l) : s.Holds l.uses := by
  refine ⟨fun name => ?_, fun n => ?_, ?_⟩
  · rw [Ledger.mem_names_uses, Option.eq_none_iff_forall_ne_some]
    simp only [ne_eq, h.names]
    grind
  · rw [Ledger.mem_numbers_uses, Option.eq_none_iff_forall_ne_some]
    simp only [ne_eq, h.numbers]
    grind
  · exact Ledger.types_uses l

/-- An entry meets a conflict if and only if it uses something again. -/
lemma entryConflict?_eq_none (h : s.Keeps l) (e : Entry) :
    s.entryConflict? e = none ↔ (l.uses ++ e.uses).Unique := by
  cases e with
  | field f => exact conflict?_eq_none_iff h.holds h.unique f
  | reservedNumber n => exact numberConflict?_eq_none_iff h.holds h.unique n
  | reservedName name => exact nameConflict?_eq_none_iff h.holds h.unique name

lemma explained_nameConflict? (h : s.Keeps l) {f : FieldIdentity} {c : Conflict}
    (hc : s.nameConflict? f = some c) : c.Explained l := by
  unfold nameConflict? at hc
  split at hc
  · cases hc
  · next usedBy hu =>
    split at hc
    · next hr =>
      obtain rfl := Option.some.inj hc
      exact (h.reservedNames f.name).1 hr
    · next hr =>
      have hf : .field ⟨f.name, usedBy⟩ ∈ l := by
        rcases (h.names f.name usedBy).1 hu with hf | ⟨-, hn⟩
        · exact hf
        · exact absurd ((h.reservedNames f.name).2 hn) hr
      cases usedBy with
      | none => obtain rfl := Option.some.inj hc; exact hf
      | some n => obtain rfl := Option.some.inj hc; exact hf

lemma explained_numberConflict? (h : s.Keeps l) {n : Int} {c : Conflict}
    (hc : s.numberConflict? n = some c) : c.Explained l := by
  unfold numberConflict? at hc
  split at hc
  · cases hc
  · next usedBy hu =>
    split at hc
    · next hr =>
      obtain rfl := Option.some.inj hc
      exact (h.reservedNumbers n).1 hr
    · next hr =>
      obtain rfl := Option.some.inj hc
      rcases (h.numbers n usedBy).1 hu with hf | ⟨-, hn⟩
      · exact hf
      · exact absurd ((h.reservedNumbers n).2 hn) hr

lemma explained_conflict? (h : s.Keeps l) {f : FieldIdentity} {c : Conflict}
    (hc : s.conflict? f = some c) : c.Explained l := by
  unfold conflict? at hc
  split at hc
  · next c' hn => exact explained_nameConflict? h (hn.trans hc)
  · obtain ⟨n, -, hn⟩ := Option.bind_eq_some_iff.1 hc
    exact explained_numberConflict? h hn

lemma explained_entryConflict? (h : s.Keeps l) {c : Conflict} (hc : s.entryConflict? e = some c) :
    c.Explained l := by
  cases e with
  | field f => exact explained_conflict? h hc
  | reservedNumber n => exact explained_numberConflict? h hc
  | reservedName name => exact explained_nameConflict? h hc

/-- An entry that uses nothing again goes to all collections that look for it. -/
lemma Keeps.recordEntry (h : s.Keeps l) (hu : (l.uses ++ e.uses).Unique) :
    (s.recordEntry e).Keeps (l ++ [e]) := by
  have hl : (Ledger.uses (l ++ [e])).Unique := by rwa [Ledger.uses_concat]
  cases e with
  | field f =>
    obtain ⟨own, ownNumber⟩ := f
    obtain ⟨hname, hnumber⟩ := (unique_append_identity h.unique _).1 hu
    simp only [Ledger.mem_names_uses, Ledger.mem_numbers_uses, not_or, not_exists] at hname hnumber
    refine ⟨hl, fun name number => ?_, fun n name => ?_, fun name => ?_, fun n => ?_⟩
    · rw [FieldScope.recordEntry, names_recordField]
      by_cases hf : own = name
      · grind
      · grind [h.names name number]
    · rw [FieldScope.recordEntry, numbers_recordField]
      by_cases hf : ownNumber = some n
      · grind
      · grind [h.numbers n name]
    · simp [FieldScope.recordEntry, recordField, h.reservedNames]
    · simp [FieldScope.recordEntry, recordField, h.reservedNumbers]
  | reservedNumber n =>
    have hn := (unique_append_number h.unique n).1 hu
    simp only [Ledger.mem_numbers_uses, not_or, not_exists] at hn
    refine ⟨hl, fun name number => ?_, fun m name => ?_, fun name => ?_, fun m => ?_⟩
    · simp [FieldScope.recordEntry, h.names]
    · rw [FieldScope.recordEntry, numbers_recordNumber]
      by_cases hm : n = m
      · grind
      · grind [h.numbers m name]
    · simp [FieldScope.recordEntry, recordNumber, h.reservedNames]
    · rw [FieldScope.recordEntry, mem_reservedNumbers_recordNumber, h.reservedNumbers]
      simp [or_comm, eq_comm]
  | reservedName name =>
    have hn := (unique_append_name h.unique name).1 hu
    simp only [Ledger.mem_names_uses, not_or, not_exists] at hn
    refine ⟨hl, fun other number => ?_, fun n other => ?_, fun other => ?_, fun n => ?_⟩
    · rw [FieldScope.recordEntry, names_recordName]
      by_cases ho : name = other
      · grind
      · grind [h.names other number]
    · simp [FieldScope.recordEntry, h.numbers]
    · rw [FieldScope.recordEntry, mem_reservedNames_recordName, h.reservedNames]
      simp [or_comm, eq_comm]
    · simp [FieldScope.recordEntry, recordName, h.reservedNumbers]

/-! ### Runs -/

lemma Keeps.recordAll (h : s.Keeps l) (es : Ledger) : (s.recordAll es).1.Keeps (l.enter es) := by
  induction es generalizing s l with
  | nil => exact h
  | cons e es ih =>
    rw [FieldScope.recordAll, Ledger.enter]
    cases hc : s.entryConflict? e with
    | none =>
      have hu := (entryConflict?_eq_none h e).1 hc
      rw [if_pos hu]
      exact ih (h.recordEntry hu)
    | some c =>
      have hu := mt (entryConflict?_eq_none h e).2 (by simp [hc])
      rwa [if_neg hu]

/-- The conflict that stops a registration is explained by what was recorded before it. -/
lemma explained_recordAll (h : s.Keeps l) {es : Ledger} {c : Conflict}
    (hc : (s.recordAll es).2 = some c) : c.Explained (l.enter es) := by
  induction es generalizing s l with
  | nil => cases hc
  | cons e es ih =>
    rw [FieldScope.recordAll] at hc
    rw [Ledger.enter]
    cases he : s.entryConflict? e with
    | none =>
      have hu := (entryConflict?_eq_none h e).1 he
      rw [if_pos hu]
      exact ih (h.recordEntry hu) (by simpa [he] using hc)
    | some c' =>
      have hu := mt (entryConflict?_eq_none h e).2 (by simp [he])
      rw [if_neg hu]
      exact explained_entryConflict? h (he.trans (by simpa [he] using hc))

lemma Keeps.perform (h : s.Keeps l) (r : Request) : (s.perform r).1.Keeps (l.record r) := by
  cases r with
  | register r =>
    rw [FieldScope.perform, take_eq]
    exact h.recordAll r.entries
  | ensureUnused f => exact h
  | reset => exact keeps_empty

lemma explained_perform (h : s.Keeps l) {r : Request} {c : Conflict}
    (hc : (s.perform r).2 = some c) :
    c.Explained (l.record r) := by
  cases r with
  | register r =>
    rw [perform, take_eq] at hc
    exact explained_recordAll h hc
  | ensureUnused f => exact explained_conflict? h hc
  | reset => cases hc

lemma Keeps.after (h : s.Keeps l) (rs : List Request) :
    (s.after rs).Keeps (rs.foldl Ledger.record l) := by
  induction rs generalizing s l with
  | nil => exact h
  | cons r rs ih => exact ih (h.perform r)

/-! ### Consistency -/

/-- The four collections agree with each other. -/
structure Consistent (s : FieldScope) : Prop where
  paired : ∀ (n : Int) (name : String),
    s.numbers[n]? = some (some name) ↔ s.names[name]? = some (some n)
  unnamed : ∀ n : Int, s.numbers[n]? = some none ↔ n ∈ s.reservedNumbers
  reserved : ∀ name ∈ s.reservedNames, s.names[name]? = some none

lemma Keeps.consistent (h : s.Keeps l) : s.Consistent where
  paired n name := by simp [h.numbers, h.names]
  unnamed n := by simp [h.numbers, h.reservedNumbers]
  reserved name hn := (h.names name none).2 (.inr ⟨rfl, (h.reservedNames name).1 hn⟩)

lemma register_isSome_iff (s : FieldScope) (f : FieldIdentity) :
    (s.register f).2.isSome ↔
      f.name ∈ s.names ∨ ∃ n, f.number = some n ∧ n ∈ s.numbers := by
  have hc : (s.register f).2 = s.conflict? f := by
    unfold register
    split <;> simp_all
  rw [hc, ← Option.ne_none_iff_isSome, ne_eq, conflict?_eq_none]
  simp only [Std.ExtTreeMap.mem_iff_isSome_getElem?, ← Option.ne_none_iff_isSome]
  grind

lemma register_of_conflict {f : FieldIdentity} (h : (s.register f).2.isSome) :
    (s.register f).1 = s := by
  unfold register at h ⊢
  split <;> simp_all

/-- Whatever was requested, and whichever conflicts that met: the collections agree with each
other, a field is refused exactly for a name or a number in use, and a conflict is put down to what
was recorded. -/
theorem after_consistent (rs : List Request) :
    let s := ({} : FieldScope).after rs
    s.Consistent ∧
      (∀ f, (s.register f).2.isSome ↔ f.name ∈ s.names ∨ ∃ n, f.number = some n ∧ n ∈ s.numbers) ∧
      (∀ f, (s.register f).2.isSome → (s.register f).1 = s) ∧
      (∀ f, (s.perform (.ensureUnused f)).1 = s) ∧
      ∀ r c, (s.perform r).2 = some c → c.Explained (Ledger.of (rs ++ [r])) := by
  intro s
  have h : s.Keeps (Ledger.of rs) := keeps_empty.after rs
  refine ⟨h.consistent, register_isSome_iff s, fun f => register_of_conflict, fun f => rfl,
    fun r c hc => ?_⟩
  have he : Ledger.of (rs ++ [r]) = (Ledger.of rs).record r := by simp [Ledger.of]
  rw [he]
  exact explained_perform h hc

/-- The second member of the group meets the number of the first, which stays recorded. -/
theorem after_consistent_group :
    let rs : List Request := [.register (.reservation [4] ["old"]),
      .register (.group "choice" [⟨"a", some 1⟩, ⟨"b", some 1⟩])]
    let s := ({} : FieldScope).after rs
    let r : Request := .register (.field ⟨"c", some 1⟩)
    (s.perform r).2 = some (.usedNumber 1 (some "a")) ∧
      (Conflict.usedNumber 1 (some "a")).Explained (Ledger.of (rs ++ [r])) := by
  intro rs s r
  have hc : (s.perform r).2 = some (.usedNumber 1 (some "a")) := by decide +kernel
  exact ⟨hc, (after_consistent rs).2.2.2.2 r _ hc⟩

end FieldScope

end ProtoSchema.Usage
