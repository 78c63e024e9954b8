import ProtoSchema.Proofs.Balance
import ProtoSchema.Proofs.Checks
import ProtoSchema.Proofs.WellFormed

/-!
A tree can be printed if and only if all its scopes are unique.

Each script with a scope of its own is looked at as a list of registrations, whose faults are
exactly the conflicts, as long as the numbers of all reservations can be listed. Everything else in
a well formed tree has a text, unless a whole number is too large for a floating point literal or
has too many digits.
-/

namespace ProtoSchema

open Print Usage

/-! ### Literals -/

lemma FieldType.format_ok {t : FieldType} {v : Scalar} (h : t.mismatch? v = none)
    (hl : ¬ TooLarge (t, v)) : ∃ text, t.format v = .ok text := by
  have hb : t.isFloating → ∃ x, v.toBinary64 = .ok x := by
    intro ht
    cases suited_of_mismatch? h with
    | whole n =>
      cases hn : Number.Binary64.ofInt? n with
      | none => exact absurd ⟨ht, n, rfl, hn⟩ hl
      | some x => exact ⟨x, by simp [Scalar.toBinary64, hn]⟩
    | real x => exact ⟨x, rfl⟩
    | truth | name | text | byteText | bytes => exact absurd ht Bool.false_ne_true
  have hp : ∃ text, t.formatPlain v = .ok text := by
    cases t with
    | float | double =>
      obtain ⟨x, hx⟩ := hb rfl
      exact ⟨x.text, by simp [formatPlain, hx, Except.map]⟩
    | _ => exact ⟨_, rfl⟩
  cases v with
  | bytes b => exact ⟨_, rfl⟩
  | _ => exact hp

/-! ### Declarations without a scope -/

section Leaves

variable {target : OptionTarget}

lemma OptionDecl.fault?_entries {entries : List OptionEntry} (hw : ∀ e ∈ entries, e.WellFormed)
    (hl : ∀ e ∈ entries, ¬ TooLarge (e.type, e.value)) (after : String) :
    Script.fault? (entries.map (OptionEntry.step · after)) = none := by
  induction entries with
  | nil => rfl
  | cons e entries ih =>
    have he := FieldType.format_ok (hw e List.mem_cons_self) (hl e List.mem_cons_self)
    have hs : (e.step after).fault? = none := fault?_literal he _ _
    rw [List.map_cons, Script.fault?_cons, hs, Option.none_or]
    exact ih (fun d hd => hw d (List.mem_cons_of_mem e hd)) fun d hd =>
      hl d (List.mem_cons_of_mem e hd)

variable {o : OptionDecl}

lemma OptionDecl.fault?_inlineScript (hw : o.WellFormed target)
    (hl : ∀ v ∈ o.typedValues, ¬ TooLarge v) : o.inlineScript.fault? = none := by
  have hv := hw.value
  unfold inlineScript
  unfold typedValues at hl
  split
  · next type value he =>
    simp only [he] at hv hl
    have hs := fault?_literal (FieldType.format_ok hv (hl _ List.mem_cons_self))
      (o.writtenName ++ " = ") ""
    simp [hs]
  · next entries he =>
    simp only [he] at hv hl
    have hs := fault?_entries hv (fun e h => hl _ (List.mem_map_of_mem h)) " "
    simp [hs, Step.fault?]

lemma OptionDecl.fault?_script (hw : o.WellFormed target)
    (hl : ∀ v ∈ o.typedValues, ¬ TooLarge v) : o.script.fault? = none := by
  have hv := hw.value
  unfold script
  split
  · exact fault?_inlineScript hw hl
  · unfold statementScript
    unfold typedValues at hl
    split
    · next type value he =>
      simp only [he] at hv hl
      have hs := fault?_literal (FieldType.format_ok hv (hl _ List.mem_cons_self))
        ("option " ++ o.writtenName ++ " = ") ";\n"
      simp [hs, Step.fault?]
    · next entries he =>
      simp only [he] at hv hl
      have hs := fault?_entries hv (fun e h => hl _ (List.mem_map_of_mem h)) "\n"
      simp [hs, Step.fault?]

variable {options : List OptionDecl}

lemma fault?_options (hw : ∀ o ∈ options, o.WellFormed target)
    (hl : ∀ v ∈ valuesOf options, ¬ TooLarge v) :
    Script.fault? (options.flatMap OptionDecl.script) = none := by
  refine Script.fault?_flatMap_eq_none.2 fun o ho =>
    OptionDecl.fault?_script (hw o ho) fun v hv => ?_
  exact hl v (List.mem_flatMap.2 ⟨o, ho, hv⟩)

lemma fault?_optionSection (hw : ∀ o ∈ options, o.WellFormed target)
    (hl : ∀ v ∈ valuesOf options, ¬ TooLarge v) :
    Script.fault? (optionSection options).flatten = none := by
  rw [optionSection, fault?_sectionFor (by rintro rfl; rfl)]
  exact fault?_options hw hl

lemma fault?_lineScript {number : Int} (hw : ∀ o ∈ options, o.WellFormed target)
    (hl : Writable (valuesOf options) [number]) (comment : List String) (text : String) :
    Script.fault? (lineScript comment number text options) = none := by
  have hb : Script.fault? (OptionDecl.bracketScript options) = none := by
    have hi : Script.fault?
        (List.intercalate [.emit ", "] (options.map OptionDecl.inlineScript)) = none := by
      refine fault?_intercalate rfl fun s hs => ?_
      obtain ⟨o, ho, rfl⟩ := List.mem_map.1 hs
      exact OptionDecl.fault?_inlineScript (hw o ho) fun v hv =>
        hl.values v (List.mem_flatMap.2 ⟨o, ho, hv⟩)
    unfold OptionDecl.bracketScript
    split
    · rfl
    · simp [hi, Step.fault?]
  rw [lineScript, Step.numbered_of_short hl.numbers]
  simp [hb, Step.fault?]

lemma Field.fault?_script {f : Field} (hw : f.WellFormed)
    (hl : Writable (valuesOf f.options) [f.number]) : f.script.fault? = none :=
  fault?_lineScript hw.options hl _ _

lemma MapField.fault?_script {f : MapField} (hw : f.WellFormed)
    (hl : Writable (valuesOf f.options) [f.number]) : f.script.fault? = none :=
  fault?_lineScript hw.options hl _ _

lemma EnumValue.fault?_script {v : EnumValue} (hw : v.WellFormed)
    (hl : Writable (valuesOf v.options) [v.number]) : v.script.fault? = none :=
  fault?_lineScript hw.options hl _ _

lemma Reservation.fault?_script {r : Reservation} (hl : Writable [] r.writtenNumbers) :
    r.script.fault? = none := by
  rw [script, Step.numbered_of_short hl.numbers]
  rfl

lemma Oneof.fault?_script {o : Oneof} (hw : o.WellFormed)
    (hl : Writable o.typedValues o.writtenNumbers) : o.script.fault? = none := by
  obtain ⟨ho, hm⟩ := (Writable.append hl : Writable (valuesOf o.options) [] ∧ _)
  have hf : Script.fault? (o.members.flatMap Field.script) = none :=
    Script.fault?_flatMap_eq_none.2 fun f h => Field.fault?_script (hw.members f h).1 (hm.of_mem h)
  rw [Oneof.script, Script.fault?_cons, fault?_scope, List.flatten_append, Script.fault?_append,
    fault?_optionSection hw.options ho.values, fault?_sectionFor (fun _ => hf), hf]
  rfl

lemma Method.fault?_script {m : Method} (hw : m.WellFormed)
    (hl : ∀ v ∈ valuesOf m.options, ¬ TooLarge v) : m.script.fault? = none := by
  have ho := fault?_options hw.options hl
  unfold script
  split <;> simp [ho, Step.fault?]

end Leaves

/-! ### Declarations with a scope -/

lemma Print.checks_scope {options : List OptionDecl} {sections : List Script} {us : List Scope}
    (ho : Script.fault? (optionSection options).flatten = none) (hs : Checks sections.flatten us)
    (comment : List String) (header : String) :
    Checks (.comment comment :: scope header (optionSection options ++ sections)) us := by
  refine hs.congr ?_
  rw [Script.fault?_cons, fault?_scope, List.flatten_append, Script.fault?_append, ho]
  rfl

lemma walks_reservedScript {reservations : List Reservation}
    (hl : Writable [] (reservations.flatMap Reservation.writtenNumbers))
    (hr : ∀ range ∈ reservations.flatMap Reservation.ranges, range.IsWhole) :
    Walks FieldScope.Holds {} (Scope.all Reservation.uses reservations) []
      (reservedScript reservations) := by
  refine .registered_leaves (fun r hm => ?_) FieldScope.holds_empty .empty fun r hm => ?_
  · exact FieldScope.registers_reservation fun range h => hr range (List.mem_flatMap.2 ⟨r, hm, h⟩)
  · exact Reservation.fault?_script
      ⟨by simp, fun n h => hl.numbers n (List.mem_flatMap.2 ⟨r, hm, h⟩)⟩

lemma EnumDecl.checks {e : EnumDecl} (hw : e.WellFormed)
    (hl : Writable e.typedValues e.writtenNumbers)
    (hr : ∀ range ∈ e.reservations.flatMap Reservation.ranges, range.IsWhole) :
    Checks e.script [e.scope] := by
  obtain ⟨ho, hv⟩ := hl.append
  have hvs : ∀ v ∈ e.values, v.script.fault? = none := fun v h =>
    EnumValue.fault?_script (hw.values v h) (hv.of_mem h)
  have hrs : ∀ v ∈ e.values, Registers FieldScope.Holds
      (fun s v => rejecting (s.register (EnumValue.identity v))) EnumValue.uses v :=
    fun v _ => FieldScope.registers_identity _ v
  have hc := (walks_reservedScript ho.without_values hr).andThen fun hs hu =>
    .registered_leaves hrs hs hu hvs
  have hb := hc.checks
  rw [EnumDecl.script, List.append_assoc]
  refine checks_scope (fault?_optionSection hw.options ho.values) (hb.congr ?_) _ _
  rw [List.flatten_append, Script.fault?_append, Script.fault?_append,
    fault?_sectionFor (by rintro h; rw [h]; rfl), fault?_sectionFor (by rintro h; rw [h]; rfl)]
  rfl

lemma Service.checks {s : Service} (hw : s.WellFormed) (hl : ∀ v ∈ s.typedValues, ¬ TooLarge v) :
    Checks s.script [s.scope] := by
  obtain ⟨ho, hv⟩ := List.forall_mem_append.1 hl
  have hms : ∀ m ∈ s.methods, m.script.fault? = none := fun m h =>
    Method.fault?_script (hw.methods m h) fun t ht => hv t (List.mem_flatMap.2 ⟨m, h, ht⟩)
  have hr : ∀ m ∈ s.methods, Registers FieldScope.Holds
      (fun s m => rejecting (s.register (Method.identity m))) Method.uses m :=
    fun m _ => FieldScope.registers_identity _ m
  have hc := Walks.registered_leaves hr FieldScope.holds_empty .empty hms
  refine checks_scope (fault?_optionSection hw.options ho) (hc.checks.congr ?_) _ _
  rw [fault?_sectionFor (by rintro h; rw [h]; rfl)]
  rfl

lemma Extension.checks {e : Extension} (hw : e.WellFormed)
    (hl : Writable e.typedValues e.writtenNumbers) : Checks e.script [e.scope] := by
  have hfs : ∀ f ∈ e.fields, f.script.fault? = none := fun f h =>
    Field.fault?_script (hw f h) (Writable.of_mem hl h)
  have hr : ∀ f ∈ e.fields, Registers FieldScope.Holds
      (fun s f => rejecting (s.register (Field.identity f))) Field.uses f :=
    fun f _ => FieldScope.registers_identity _ f
  have hc := Walks.registered_leaves hr FieldScope.holds_empty .empty hfs
  refine hc.checks.congr ?_
  rw [Extension.script, Script.fault?_cons, fault?_scope,
    fault?_sectionFor (by rintro h; rw [h]; rfl)]
  rfl

lemma Message.checks {m : Message} (hw : m.WellFormed)
    (hl : Writable m.typedValues m.writtenNumbers) (hr : ∀ range ∈ m.listedRanges, range.IsWhole) :
    Checks m.script m.scopes := by
  induction m using Message.induction with
  | step m ih =>
    rw [Message.typedValues_eq, Message.writtenNumbers_eq] at hl
    obtain ⟨ho, hv⟩ := hl.append
    rw [Message.listedRanges_eq] at hr
    obtain ⟨hro, hrs⟩ := List.forall_mem_append.1 hr
    have hms : ∀ x ∈ m.blocks.flatten, Checks x.script x.scopes := by
      intro x hx
      have hwx := hw.members x hx
      have hlx : Writable x.typedValues x.writtenNumbers := hv.of_mem hx
      have hrx : ∀ range ∈ x.listedRanges, range.IsWhole := fun range h =>
        hrs range (List.mem_flatMap.2 ⟨x, hx, h⟩)
      cases hwx with
      | field h => exact .of_no_fault (Field.fault?_script h hlx)
      | map h => exact .of_no_fault (MapField.fault?_script h hlx)
      | oneof h => exact .of_no_fault (Oneof.fault?_script h hlx)
      | message h => exact ih _ hx h hlx hrx
      | enum h => exact EnumDecl.checks h hlx hrx
    have hc := (walks_reservedScript ho.without_values hro).andThen fun hs hu =>
      .registered (fun x _ => Member.registers x)
        (MemberScope.holds_of_fields hs (some m.name)) hu hms
    rw [Message.script_eq, Message.scopes_eq, List.append_assoc]
    refine checks_scope (fault?_optionSection hw.options ho.values) (hc.checks.congr ?_) _ _
    rw [List.flatten_append, Member.flatten_sections, Script.fault?_append, Script.fault?_append,
      fault?_sectionFor (by rintro h; rw [h]; rfl)]

lemma Declaration.checks {d : Declaration} (hw : d.WellFormed)
    (hl : Writable d.typedValues d.writtenNumbers) (hr : ∀ range ∈ d.listedRanges, range.IsWhole) :
    Checks d.script d.scopes := by
  cases d with
  | message m => exact Message.checks hw hl hr
  | enum e => exact EnumDecl.checks hw hl hr
  | service s => exact Service.checks hw hl.values
  | extension e => exact Extension.checks hw hl

lemma Declaration.fault?_blocksScript (s : TypeScope) (blocks : List (List Declaration)) :
    (blocksScript s blocks).fault? =
      Script.fault? (registered register script s blocks.flatten).1 := by
  induction blocks generalizing s with
  | nil => rfl
  | cons b bs ih =>
    rw [List.flatten_cons, registered_append, blocksScript, Script.fault?_cons,
      Script.fault?_append, Script.fault?_append, ih]
    rfl

lemma File.fault?_part {α : Type} {elements : List α} {script : α → Script}
    (h : Script.fault? (elements.flatMap script) = none) :
    Script.fault? (part elements script) = none := by
  unfold part
  split
  · rfl
  · simp [h, Step.fault?]

lemma File.fault?_packageScript (f : File) : f.packageScript.fault? = none := by
  unfold packageScript
  split <;> rfl

lemma File.fault?_importPart (f : File) : Script.fault? (part f.imports Import.script) = none :=
  fault?_part (Script.fault?_flatMap_eq_none.2 fun _ _ => rfl)

lemma File.fault?_optionPart {f : File} (hw : f.WellFormed)
    (hl : ∀ v ∈ valuesOf f.options, ¬ TooLarge v) :
    Script.fault? (part f.options OptionDecl.script) = none :=
  fault?_part (fault?_options hw.options hl)

lemma File.checks {f : File} (hw : f.WellFormed) (hl : Writable f.typedValues f.writtenNumbers)
    (hr : ∀ range ∈ f.listedRanges, range.IsWhole) : Checks f.script f.scopes := by
  obtain ⟨ho, hv⟩ := (Writable.append hl : Writable (valuesOf f.options) [] ∧ _)
  have hds : ∀ d ∈ f.blocks.flatten, Checks d.script d.scopes := fun d hd =>
    Declaration.checks (hw.declarations d hd) (hv.of_mem hd) fun range h =>
      hr range (List.mem_flatMap.2 ⟨d, hd, h⟩)
  have hc := Walks.registered (fun d _ => Declaration.registers d)
    (TypeScope.holds_empty none) .empty hds
  refine hc.checks.congr ?_
  simp [File.script, Step.fault?, f.fault?_packageScript, f.fault?_importPart,
    fault?_optionPart hw ho.values, Declaration.fault?_blocksScript]

namespace Node

lemma checks {n : Node} (hn : n ≠ .bare) (hw : n.WellFormed)
    (hl : Writable n.typedValues n.writtenNumbers) (hr : ∀ range ∈ n.listedRanges, range.IsWhole) :
    Checks n.script n.scopes := by
  cases n with
  | bare => exact absurd rfl hn
  | option o => exact .of_no_fault (OptionDecl.fault?_script hw hl.values)
  | reservation r => exact .of_no_fault (Reservation.fault?_script hl)
  | imported i => exact .of_no_fault rfl
  | field f => exact .of_no_fault (Field.fault?_script hw hl)
  | mapField f => exact .of_no_fault (MapField.fault?_script hw hl)
  | oneof o => exact .of_no_fault (Oneof.fault?_script hw hl)
  | enumValue v => exact .of_no_fault (EnumValue.fault?_script hw hl)
  | enum e => exact EnumDecl.checks hw hl hr
  | message m => exact Message.checks hw hl hr
  | method m => exact .of_no_fault (Method.fault?_script hw hl.values)
  | service s => exact Service.checks hw hl.values
  | extension e => exact Extension.checks hw hl
  | file f => exact File.checks hw hl hr

/-- **Exactness of usage checking**: where all ranges of reservations are between whole numbers and
all numbers have a text, a node is refused for a conflict if and only if something is used twice in
one of its scopes, and printed otherwise. -/
theorem print_conflict_iff (n : Node) (hn : n ≠ .bare) (hw : n.WellFormed)
    (hl : ∀ v ∈ n.typedValues, ¬ TooLarge v) (hs : ∀ k ∈ n.writtenNumbers, ¬ Number.tooLong k)
    (hr : ∀ range ∈ n.listedRanges, range.IsWhole) (style : Layout.Style) :
    ((∃ c, n.print style = .error (.conflict c)) ↔ ∃ u ∈ n.scopes, ¬ u.Unique) ∧
      ((∀ u ∈ n.scopes, u.Unique) → ∃ text, n.print style = .ok text) := by
  have hc := checks hn hw ⟨hl, hs⟩ hr
  have he : n.script.fault? = none ↔ ¬ ∃ u ∈ n.scopes, ¬ u.Unique := by
    rw [hc.exact]
    simp
  refine ⟨⟨?_, fun hu => ?_⟩, fun hu => ?_⟩
  · rintro ⟨c, h⟩
    by_contra hu
    rw [print_eq_error, he.2 hu] at h
    simp at h
  · obtain ⟨e, hf⟩ := Option.ne_none_iff_exists'.1 fun hf => he.1 hf hu
    obtain ⟨c, rfl⟩ := hc.conflict e hf
    exact ⟨c, print_eq_error.2 hf⟩
  · have hf := hc.exact.2 hu
    rw [print_eq, hf]
    exact ⟨_, rfl⟩

lemma scopes_sample (number : Int) : (message (.sample number)).scopes =
    [{ names := ["title", "source", "path"], numbers := [2, 3, 1, number] }] := rfl

lemma unique_sample : ∀ u ∈ (message (.sample 4)).scopes, u.Unique := by
  intro u hu
  obtain rfl := List.mem_singleton.1 (scopes_sample 4 ▸ hu)
  exact ⟨by decide, by decide, by decide⟩

lemma listedRanges_sample (number : Int) : (message (.sample number)).listedRanges = [] := rfl

lemma print_sample (style : Layout.Style) :
    ∃ text, (message (.sample 4)).print style = .ok text := by
  have hc := checks (by simp : message (.sample 4) ≠ .bare)
    (Message.sample_wellFormed (by decide))
    ⟨Message.sample_values 4, Message.sample_numbers (by decide)⟩ (by simp [listedRanges_sample])
  rw [print_eq, hc.exact.2 unique_sample]
  exact ⟨_, rfl⟩

/-- The member of the oneof may take the number 4, but not 3, which is reserved. -/
theorem print_conflict_iff_sample :
    (message (.sample 3)).WellFormed ∧ (∀ v ∈ (message (.sample 3)).typedValues, ¬ TooLarge v) ∧
      (∀ k ∈ (message (.sample 3)).writtenNumbers, ¬ Number.tooLong k) ∧
      (∀ range ∈ (message (.sample 3)).listedRanges, range.IsWhole) ∧
      (∃ c, (message (.sample 3)).print .usual = .error (.conflict c)) ∧
        ∃ text, (message (.sample 4)).print .usual = .ok text := by
  have hw : ∀ number : Int, 0 < number → (message (.sample number)).WellFormed :=
    fun number h => Message.sample_wellFormed h
  have hs : ∀ number : Int, ¬ Number.tooLong number →
      ∀ k ∈ (message (.sample number)).writtenNumbers, ¬ Number.tooLong k :=
    fun number h => Message.sample_numbers h
  have hr : ∀ number, ∀ range ∈ (message (.sample number)).listedRanges, range.IsWhole := by
    simp [listedRanges_sample]
  have h₃ := print_conflict_iff (message (.sample 3)) (by simp) (hw 3 (by decide))
    (Message.sample_values 3) (hs 3 (by decide)) (hr 3) .usual
  have h₄ := print_conflict_iff (message (.sample 4)) (by simp) (hw 4 (by decide))
    (Message.sample_values 4) (hs 4 (by decide)) (hr 4) .usual
  refine ⟨hw 3 (by decide), Message.sample_values 3, hs 3 (by decide), hr 3, ?_, h₄.2 unique_sample⟩
  refine h₃.1.2 ⟨{ names := ["title", "source", "path"], numbers := [2, 3, 1, 3] }, ?_, ?_⟩
  · simp [scopes_sample]
  · exact fun h => absurd h.numbers (by decide)

lemma fault?_single {name : String} {f : Field} (h : Number.tooLong f.number) :
    (message { name, blocks := [[.field f]] }).script.fault? = some (.number .tooLong) := by
  have hs : (message { name, blocks := [[.field f]] }).script.fault? = f.script.fault? := by
    have hg : ((Member.field f).register ⟨{}, { owner := some name }⟩).2 = none := by
      refine ((Member.registers (.field f)).tracks
        (MemberScope.holds_of_fields FieldScope.holds_empty _) .empty).accepted.2 ?_
      exact ⟨List.nodup_singleton _, List.nodup_singleton _, List.nodup_nil⟩
    have hm : (reservedScript []).2 = {} := rfl
    rw [script, Message.script_eq, Script.fault?_cons, fault?_scope, List.flatten_append,
      Member.flatten_sections, hm]
    simp [registered, hg, fault?_guard, optionSection, sectionFor, Step.fault?, Member.script]
  rw [hs]
  simp [Field.script, lineScript, Step.numbered, h, Step.fault?]

/-- Nothing is used twice in these messages, and still neither is printed: one reserves a
range between floating point numbers, 1.5 and 3.5, and the other has a field number with one
digit too many. -/
theorem unique_unprinted :
    let range : FieldRange :=
      ⟨.real ⟨0x3ff8000000000000⟩, .real ⟨0x400c000000000000⟩, by decide, by decide⟩
    let unlisted := message { name := "M", reservations := [{ ranges := [range] }] }
    let number : Int := Number.tenPow Number.digitLimit
    let long := message
      { name := "M", blocks := [[.field { type := .string, name := "a", number }]] }
    (∀ n ∈ [unlisted, long], n.WellFormed ∧ (∀ v ∈ n.typedValues, ¬ TooLarge v) ∧
        ∀ u ∈ n.scopes, u.Unique) ∧
      unlisted.print .usual = .error (.listing .realBound) ∧
      long.print .usual = .error (.number .tooLong) := by
  intro range unlisted number long
  have hr : Reservation.WellFormed { ranges := [range] } := ⟨.inl rfl, by simp, by simp⟩
  have hf : Field.WellFormed { type := .string, name := "a", number } :=
    ⟨Int.natCast_pos.2 (Number.tenPow_pos _), rfl, by simp⟩
  have hl : Number.tooLong number := Number.tooLong_tenPow (Nat.le_refl _)
  have hu : unlisted.WellFormed :=
    Message.WellFormed.mk (by simp) (List.forall_mem_singleton.2 hr) (by simp)
  have hw : long.WellFormed :=
    Message.WellFormed.mk (by simp) (by simp) (List.forall_mem_singleton.2 (.field hf))
  have hus : unlisted.scopes = [{}] := rfl
  have hls : long.scopes = [{ names := ["a"], numbers := [number] }] := rfl
  have huf : unlisted.script.fault? = some (.listing .realBound) := by decide +kernel
  have hlf : long.script.fault? = some (.number .tooLong) := fault?_single hl
  have hv : ∀ n ∈ [unlisted, long], n.typedValues = [] :=
    List.forall_mem_cons.2 ⟨rfl, List.forall_mem_singleton.2 rfl⟩
  refine ⟨fun n hn => ⟨?_, by simp [hv n hn], ?_⟩, print_eq_error.2 huf, print_eq_error.2 hlf⟩
  · rcases List.mem_pair.1 hn with rfl | rfl
    · exact hu
    · exact hw
  · rcases List.mem_pair.1 hn with rfl | rfl
    · rw [hus]
      exact List.forall_mem_singleton.2 .empty
    · rw [hls]
      exact List.forall_mem_singleton.2
        ⟨List.nodup_singleton _, List.nodup_singleton _, List.nodup_nil⟩

end Node

end ProtoSchema
