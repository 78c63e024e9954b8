import ProtoSchema.Proofs.Document
import ProtoSchema.Proofs.Outline

/-!
Where the text ends when a registration is refused.

Registrations decide only where the text stops. It stops right in front of the first element whose
registration is refused, and up to there it is the text that is written when nothing is registered.
-/

namespace ProtoSchema

open Layout Layout.Writer Print Usage

namespace Print

/-! ### Scripts that write at least a line -/

/-- Without registrations, the script writes one line or more. -/
def Visible (s : Script) : Prop := ∃ l ls, Lays s.unchecked (l :: ls)

lemma Visible.text_ne_nil {s : Script} (h : Visible s) (style : Style) (level : Nat) :
    (Script.run s.unchecked (fresh style level false)).text ≠ [] := by
  obtain ⟨l, ls, h⟩ := h
  have hn : '\n' ∈ l.write style level := by
    simp [Line.write, lineText, newline, Writer.append, Cursor.append]
  rw [h.run, List.flatMap_cons]
  exact List.append_ne_nil_of_left_ne_nil (List.ne_nil_of_mem hn) _

lemma Visible.of_shows {s : Script} {d : List Char → List (List Char)} (hu : s.unchecked = s)
    (h : Shows s d) (hd : d [] ≠ []) : Visible s := by
  obtain ⟨ls, hl, hs⟩ := h
  cases ls with
  | nil => exact absurd (hs []).symm hd
  | cons l ls => exact ⟨l, ls, by rwa [hu]⟩

lemma Visible.append {s r : Script} (h : Visible s) (hr : ∃ ks, Lays r.unchecked ks) :
    Visible (s ++ r) := by
  obtain ⟨l, ls, hl⟩ := h
  obtain ⟨ks, hk⟩ := hr
  exact ⟨l, ls ++ ks, by rw [Script.unchecked_append]; exact hl.append hk⟩

lemma textDoc_ne_nil (text : String) : textDoc text ≠ [] := lines_ne_nil _

lemma scopeDoc_ne_nil (step : List Char) (header : String) (sections : List (List (List Char))) :
    scopeDoc step header sections ≠ [] := by
  unfold scopeDoc
  split <;> simp [textDoc_ne_nil]

/-! ### Runs that stop at a site -/

/-- Run from the start of a line, the script stops with a rejection in front of the element of a
site. What it would have written else goes on with the element. -/
structure StopsAt (s : Script) (r : Rejection) (t : Site) : Prop where
  rejection : t.rejection = some r
  visible : s.unchecked.fault? = none → Visible t.node.script
  place : ∀ style level, ∃ inner rest,
    Script.run t.before (fresh style level false) =
        ⟨(Script.run s (fresh style level false)).text, fresh style inner false, none⟩ ∧
      (Script.run s.unchecked (fresh style level false)).text =
        (Script.run s (fresh style level false)).text ++
          (Script.run t.node.script.unchecked (fresh style inner false)).text ++ rest

/-- The elements of the script are those of the sites, and a rejection stops it at the first of them
that is not registered. It is laid out in lines if nothing else in it fails, and nothing does under
the condition `P`. -/
structure Traced (P : Prop) (s : Script) (sites : List Site) : Prop where
  balanced : Balanced s
  sound : P → s.unchecked.fault? = none
  lays : s.unchecked.fault? = none → ∃ ls, Lays s.unchecked ls
  clear : s.fault? = none → ∀ t ∈ sites, t.rejection = none
  stops : ∀ r, s.fault? = some (.ofRejection r) → ∃ earlier t later,
    sites = earlier ++ t :: later ∧ (∀ u ∈ earlier, u.rejection = none) ∧ StopsAt s r t

lemma andThen_run_nil (o : Outcome PrintError) : o.andThen (Script.run []) = o := by
  obtain ⟨text, w, _ | e⟩ := o
  · simp [Outcome.andThen, Script.run]
  · rfl

lemma text_leaveBody {ε : Type} (lift : LayoutError → ε) (o : Outcome ε) :
    (o.leaveBody lift).text = o.text := by
  unfold Outcome.leaveBody
  split <;> rfl

/-- A body writes what its steps write one indent step further in. -/
lemma text_run_body (s : Script) (w : Writer) :
    (Script.run [.body s] w).text = (Script.run s w.stepIn).text := by
  rw [Script.run, andThen_run_nil, Step.run, indent_none]
  exact text_leaveBody ..

lemma stepIn_fresh (style : Style) (level : Nat) :
    (fresh style level false).stepIn = fresh style (level + style.indentSize) false := rfl

lemma exists_text_andThen (o : Outcome PrintError) (next : Writer → Outcome PrintError) :
    ∃ more, (o.andThen next).text = o.text ++ more := by
  cases he : o.error with
  | some e => exact ⟨[], by rw [Outcome.andThen_of_error he, List.append_nil]⟩
  | none => exact ⟨_, by rw [Outcome.andThen_of_no_error he]⟩

namespace StopsAt

variable {s q : Script} {r : Rejection} {t : Site}

/-- What would follow is not written. -/
lemma followed (h : StopsAt s r t) (hs : Balanced s) (hf : s.fault? = some (.ofRejection r))
    (q : Script) : StopsAt (s ++ q) r t := by
  refine ⟨h.rejection, fun hu => h.visible (Script.fault?_unchecked_append.1 hu).1,
    fun style level => ?_⟩
  obtain ⟨inner, rest, hb, hu⟩ := h.place style level
  have he : (Script.run s (fresh style level false)).error = _ := (hs.runs _).error.trans hf
  have hr : Script.run (s ++ q) (fresh style level false) =
      Script.run s (fresh style level false) := by
    rw [Script.run_append, Outcome.andThen_of_error he]
  obtain ⟨more, hm⟩ := exists_text_andThen (Script.run s.unchecked (fresh style level false))
    (Script.run q.unchecked)
  rw [hr, Script.unchecked_append, Script.run_append, hm, hu]
  exact ⟨inner, _, hb, List.append_assoc ..⟩

/-- What stands in front is written. -/
lemma behind (h : StopsAt q r t) {ls : List Line} (hl : Lays s ls) (hs : s.unchecked = s) :
    StopsAt (s ++ q) r (t.behind s.unchecked) := by
  refine ⟨h.rejection, fun hu => h.visible (Script.fault?_unchecked_append.1 hu).2,
    fun style level => ?_⟩
  obtain ⟨inner, rest, hb, hu⟩ := h.place style level
  have ha : ∀ q, Script.run (s ++ q) (fresh style level false) =
      { Script.run q (fresh style level false) with
        text := ls.flatMap (Line.write style level) ++
          (Script.run q (fresh style level false)).text } := by
    intro q
    rw [Script.run_append, hl.run, Outcome.andThen_of_no_error rfl]
  refine ⟨inner, rest, ?_, ?_⟩
  · rw [Site.behind, hs, ha, ha, hb]
  · rw [Script.unchecked_append, hs, ha, ha]
    dsimp only [Site.behind]
    rw [hu]
    simp only [List.append_assoc]

lemma body (h : StopsAt s r t) : StopsAt [.body s] r (t.behind [.indent none]) := by
  refine ⟨h.rejection, fun hu => h.visible ?_, fun style level => ?_⟩
  · simpa [Script.unchecked_body, Step.fault?] using hu
  · obtain ⟨inner, rest, hb, hu⟩ := h.place style (level + style.indentSize)
    refine ⟨inner, rest, ?_, ?_⟩
    · rw [text_run_body, stepIn_fresh, ← hb, Site.behind, List.singleton_append, Script.run,
        Step.run, indent_none, Outcome.ofChange, Outcome.nothing_andThen, stepIn_fresh]
    · rw [Script.unchecked_body, text_run_body, text_run_body, stepIn_fresh]
      exact hu

end StopsAt

namespace Traced

variable {P : Prop} {s q : Script} {ss qs : List Site}

/-- A text in which nothing is registered. It may fail, but not with a rejection. -/
lemma text {d : List Char → List (List Char)} (hb : Balanced s) (hu : s.unchecked = s)
    (hf : P → s.fault? = none) (h : s.fault? = none → Shows s d) : Traced P s [] := by
  refine ⟨hb, hu.symm ▸ hf, fun hf => ?_, by simp, fun r hr => ?_⟩
  · rw [hu] at hf ⊢
    obtain ⟨ls, hl, -⟩ := h hf
    exact ⟨ls, hl⟩
  · rw [← hu] at hr
    exact absurd hr (Script.fault?_unchecked_ne r s)

lemma nil : Traced P [] [] := text .nil rfl (fun _ => rfl) fun _ => .nil

lemma append (hs : Traced P s ss) (hq : Traced P q qs) :
    Traced P (s ++ q) (ss ++ qs.map (.behind s.unchecked)) := by
  refine ⟨hs.balanced.append hq.balanced,
    fun h => Script.fault?_unchecked_append.2 ⟨hs.sound h, hq.sound h⟩, fun hf => ?_,
    fun hf => ?_, fun r hr => ?_⟩
  · obtain ⟨hfs, hfq⟩ := Script.fault?_unchecked_append.1 hf
    obtain ⟨ls, hl⟩ := hs.lays hfs
    obtain ⟨ks, hk⟩ := hq.lays hfq
    exact ⟨ls ++ ks, by rw [Script.unchecked_append]; exact hl.append hk⟩
  · rw [Script.fault?_append, Option.or_eq_none_iff] at hf
    exact List.forall_mem_append.2 ⟨hs.clear hf.1, List.forall_mem_map.2 (hq.clear hf.2)⟩
  · rw [Script.fault?_append] at hr
    cases hf : s.fault? with
    | some e =>
      have he : s.fault? = some (.ofRejection r) := by simpa [hf] using hr
      obtain ⟨earlier, t, later, rfl, hn, ht⟩ := hs.stops r he
      exact ⟨earlier, t, later ++ qs.map (.behind s.unchecked), by simp, hn,
        ht.followed hs.balanced he q⟩
    | none =>
      have hu := Script.unchecked_of_fault? hf
      obtain ⟨ls, hl⟩ := hs.lays (by rw [hu]; exact hf)
      rw [hu] at hl
      obtain ⟨earlier, t, later, rfl, hn, ht⟩ := hq.stops r (by simpa [hf] using hr)
      refine ⟨ss ++ earlier.map (.behind s.unchecked), t.behind s.unchecked,
        later.map (.behind s.unchecked), by simp, ?_, ht.behind hl hu⟩
      exact List.forall_mem_append.2 ⟨hs.clear hf, List.forall_mem_map.2 hn⟩

lemma body (h : Traced P s ss) : Traced P [.body s] (ss.map (.behind [.indent none])) := by
  have hf : ∀ s : Script, Script.fault? [.body s] = s.fault? := fun s => by simp [Step.fault?]
  refine ⟨.body h.balanced .nil, fun hp => ?_, fun hu => ?_, fun hn => ?_, fun r hr => ?_⟩
  · rw [Script.unchecked_body, hf]
    exact h.sound hp
  · rw [Script.unchecked_body, hf] at hu
    obtain ⟨ls, hl⟩ := h.lays hu
    exact ⟨_, hl.body⟩
  · exact List.forall_mem_map.2 (h.clear (hf s ▸ hn))
  · obtain ⟨earlier, t, later, rfl, hn, ht⟩ := h.stops r (hf s ▸ hr)
    exact ⟨earlier.map (.behind [.indent none]), t.behind [.indent none],
      later.map (.behind [.indent none]), by simp, List.forall_mem_map.2 hn, ht.body⟩

/-- An element behind its registration. -/
lemma element {n : Node} (h : Traced P n.script ss)
    (ho : n.script.unchecked.fault? = none → Visible n.script) (r : Option Rejection) :
    Traced P (guard r ++ n.script) (⟨[], n, r⟩ :: ss) := by
  have hu : Script.unchecked (guard r ++ n.script) = n.script.unchecked := by simp
  refine ⟨(Balanced.guard r).append h.balanced, hu ▸ h.sound, hu ▸ h.lays, fun hf => ?_,
    fun q hq => ?_⟩
  · rw [Script.fault?_append, Option.or_eq_none_iff, fault?_guard, Option.map_eq_none_iff] at hf
    exact List.forall_mem_cons.2 ⟨hf.1, h.clear hf.2⟩
  · -- an element that is registered may still hold one that is not
    cases r with
    | none =>
      obtain ⟨earlier, t, later, rfl, hn, ht⟩ := h.stops q hq
      exact ⟨⟨[], n, none⟩ :: earlier, t, later, rfl, List.forall_mem_cons.2 ⟨rfl, hn⟩, ht⟩
    | some r =>
      have hr : PrintError.ofRejection r = .ofRejection q := by
        simpa [fault?_guard] using hq
      obtain rfl := PrintError.ofRejection_inj hr
      refine ⟨[], _, ss, rfl, by simp, rfl, hu ▸ ho, fun style level => ⟨level, [], ?_, ?_⟩⟩
      · rfl
      · rw [hu]
        simp [guard, Script.run, Step.run, Outcome.failed, Outcome.andThen]

end Traced

end Print

/-! ### Sound passages -/

variable {P : Prop}

/-- The sites of the passage are those of its script. -/
def Passage.Sound (P : Prop) (p : Passage) : Prop := Traced P p.script p.sites

/-- The passages are an outline of the node. -/
structure Outlined (P : Prop) (n : Node) (ps : List Passage) : Prop where
  script : Passage.scripts ps = n.script
  sound : ∀ p ∈ ps, p.Sound P
  visible : n.script.unchecked.fault? = none → Visible n.script

namespace Passage

lemma traced_scripts {ps : List Passage} (h : ∀ p ∈ ps, p.Sound P) :
    Traced P (scripts ps) (allSites ps) := by
  induction ps with
  | nil => exact .nil
  | cons p ps ih =>
    obtain ⟨hp, hps⟩ := List.forall_mem_cons.1 h
    exact Traced.append hp (ih hps)

namespace Sound

lemma text {s : Script} {d : List Char → List (List Char)} (hb : Balanced s) (hu : s.unchecked = s)
    (hf : P → s.fault? = none) (h : s.fault? = none → Shows s d) : (Passage.text s).Sound P :=
  Traced.text hb hu hf h

lemma body {ps : List Passage} (h : ∀ p ∈ ps, p.Sound P) : (Passage.body ps).Sound P :=
  (traced_scripts h).body

lemma element {n : Node} {ps : List Passage} (h : Outlined P n ps) (r : Option Rejection) :
    (Passage.element r n ps).Sound P := by
  have ht := traced_scripts h.sound
  rw [h.script] at ht
  have he := ht.element h.visible r
  rw [← h.script] at he
  exact he

end Sound

end Passage

namespace Outlined

variable {n : Node} {s : Script} {d : List Char → List (List Char)}

/-- An outline that starts with a text. -/
lemma cons {ps : List Passage} (hn : Passage.scripts (.text s :: ps) = n.script) (hb : Balanced s)
    (hu : s.unchecked = s) (hf : P → s.fault? = none) (hs : s.fault? = none → Shows s d)
    (hd : d [] ≠ []) (h : ∀ p ∈ ps, p.Sound P) : Outlined P n (.text s :: ps) := by
  refine ⟨hn, List.forall_mem_cons.2 ⟨.text hb hu hf hs, h⟩, fun hv => ?_⟩
  rw [← hn] at hv ⊢
  rw [Passage.scripts, Script.fault?_unchecked_append, Passage.script, hu] at hv
  exact (Visible.of_shows hu (hs hv.1) hd).append ((Passage.traced_scripts h).lays hv.2)

lemma whole (hu : n.script.unchecked = n.script) (hf : P → n.script.fault? = none)
    (h : n.script.fault? = none → Shows n.script d) (hd : d [] ≠ []) : Outlined P n n.whole :=
  .cons n.scripts_whole n.balanced hu hf h hd (by simp)

/-- A node in braces. -/
lemma scope {comment : List String} {header : String} {sections : List (List Passage)}
    (hn : Passage.scripts (scopePassages comment header sections) = n.script)
    (h : ∀ ps ∈ sections, ∀ p ∈ ps, p.Sound P) :
    Outlined P n (scopePassages comment header sections) := by
  have hb : ∀ last : String,
      Balanced [.comment comment, .emit (header ++ " \x7b"), .emit last] := fun _ =>
    .comment _ (.emit _ (.emit _ .nil))
  revert hn
  unfold scopePassages
  split <;> intro hn
  · exact .cons hn (hb _) rfl (fun _ => rfl) (fun _ => Shows.declaration .nil comment header)
      (by simp [scopeDoc_ne_nil]) (by simp)
  · have ho : Shows [.comment comment, .emit (header ++ " \x7b"), .emit "\n"] fun _ =>
        commentDoc comment ++ textDoc (header ++ " \x7b") :=
      (Shows.comment comment).append (.emits (Emits.single "\n").cons)
    have hc : (Passage.text [.emit "\x7d\n"]).Sound P :=
      .text (.emit _ .nil) rfl (fun _ => rfl) fun _ => .closing
    refine .cons hn (hb _) rfl (fun _ => rfl) (fun _ => ho) (by simp [textDoc_ne_nil])
      (List.forall_mem_append.2 ⟨fun p hp => ?_, List.forall_mem_singleton.2 hc⟩)
    obtain ⟨ps, hps, hp⟩ := List.mem_flatMap.1 hp
    rcases List.mem_pair.1 hp with rfl | rfl
    · exact .text (.emit _ .nil) rfl (fun _ => rfl) fun _ => .blank
    · exact .body (h ps hps)

end Outlined

lemma sound_registeredPassages {σ α : Type} {register : σ → α → σ × Option Rejection}
    {node : α → Node} {passages : α → List Passage} {as : List α}
    (h : ∀ a ∈ as, Outlined P (node a) (passages a)) (s : σ) :
    ∀ p ∈ (registeredPassages register node passages s as).1, p.Sound P := by
  induction as generalizing s with
  | nil => simp [registeredPassages]
  | cons a as ih =>
    obtain ⟨ha, has⟩ := List.forall_mem_cons.1 h
    rw [registeredPassages_cons]
    exact List.forall_mem_cons.2 ⟨.element ha _, ih has _⟩

lemma sound_passagesFor {α : Type} {elements : List α} {passages : List Passage}
    (h : ∀ p ∈ passages, p.Sound P) :
    ∀ ps ∈ passagesFor elements passages, ∀ p ∈ ps, p.Sound P := by
  unfold passagesFor
  split
  · simp
  · simpa using h

lemma Reservation.outlined {r : Reservation} (hl : P → Writable [] r.writtenNumbers) :
    Outlined P (.reservation r) (Node.reservation r).whole :=
  .whole r.unchecked_script (fun hp => Reservation.fault?_script (hl hp)) Reservation.shows
    (by simp [Reservation.doc, textDoc_ne_nil])

lemma sound_reservedPassages {reservations : List Reservation}
    (hl : P → Writable [] (reservations.flatMap Reservation.writtenNumbers)) :
    ∀ p ∈ (reservedPassages reservations).1, p.Sound P := by
  refine sound_registeredPassages (fun r hm => Reservation.outlined fun hp =>
    ⟨by simp, fun n hn => ?_⟩) _
  exact (hl hp).numbers n (List.mem_flatMap.2 ⟨r, hm, hn⟩)

lemma sound_optionPassages {target : OptionTarget} (hi : target.isInline = false)
    {options : List OptionDecl} (hw : ∀ o ∈ options, o.WellFormed target)
    (hl : P → ∀ v ∈ valuesOf options, ¬ TooLarge v) :
    ∀ ps ∈ optionPassages options, ∀ p ∈ ps, p.Sound P := by
  have hs : Script.fault? (options.flatMap OptionDecl.script) = none →
      Shows (options.flatMap OptionDecl.script) fun step => options.flatMap (OptionDecl.doc step) :=
    fun hf => .elements hf fun o ho h => o.shows ((hw o ho).target ▸ hi) h
  exact sound_passagesFor (List.forall_mem_singleton.2 (.text (.flatMap fun o _ => o.balanced)
    (OptionDecl.unchecked_flatMap options) (fun hp => fault?_options hw (hl hp)) hs))

/-! ### Outlines of declarations -/

lemma Outlined.line {n : Node} {comment : List String} {number : Int} {text : String}
    {options : List OptionDecl} {target : OptionTarget}
    (hn : n.script = lineScript comment number text options)
    (hw : ∀ o ∈ options, o.WellFormed target) (hl : P → Writable (valuesOf options) [number]) :
    Outlined P n n.whole := by
  refine .whole (hn ▸ unchecked_lineScript ..) (fun hp => hn ▸ fault?_lineScript hw (hl hp) _ _)
    (d := fun _ => lineDoc comment text options) (fun hf => ?_) (by simp [lineDoc, textDoc_ne_nil])
  rw [hn] at hf ⊢
  exact shows_lineScript hf

lemma Field.outlined {f : Field} (hw : f.WellFormed)
    (hl : P → Writable (valuesOf f.options) [f.number]) :
    Outlined P (.field f) (Node.field f).whole :=
  .line rfl hw.options hl

lemma MapField.outlined {f : MapField} (hw : f.WellFormed)
    (hl : P → Writable (valuesOf f.options) [f.number]) :
    Outlined P (.mapField f) (Node.mapField f).whole :=
  .line rfl hw.options hl

lemma EnumValue.outlined {v : EnumValue} (hw : v.WellFormed)
    (hl : P → Writable (valuesOf v.options) [v.number]) :
    Outlined P (.enumValue v) (Node.enumValue v).whole :=
  .line rfl hw.options hl

lemma Oneof.outlined {o : Oneof} (hw : o.WellFormed)
    (hl : P → Writable o.typedValues o.writtenNumbers) :
    Outlined P (.oneof o) (Node.oneof o).whole :=
  .whole o.unchecked_script (fun hp => Oneof.fault?_script hw (hl hp)) (Oneof.shows hw)
    (by simp [Oneof.doc, scopeDoc_ne_nil])

lemma Method.outlined {m : Method} (hw : m.WellFormed)
    (hl : P → ∀ v ∈ valuesOf m.options, ¬ TooLarge v) :
    Outlined P (.method m) (Node.method m).whole := by
  refine .whole m.unchecked_script (fun hp => Method.fault?_script hw (hl hp)) (Method.shows hw) ?_
  unfold Method.doc
  split <;> simp [textDoc_ne_nil]

lemma EnumDecl.outlined {e : EnumDecl} (hw : e.WellFormed)
    (hl : P → Writable e.typedValues e.writtenNumbers) : Outlined P (.enum e) e.outline := by
  have hvs : ∀ v ∈ e.values, Outlined P (.enumValue v) (Node.enumValue v).whole := fun v h =>
    EnumValue.outlined (hw.values v h) fun hp => (hl hp).append.2.of_mem h
  refine .scope e.scripts_outline (List.forall_mem_append.2 ⟨List.forall_mem_append.2 ⟨?_, ?_⟩, ?_⟩)
  · exact sound_optionPassages rfl hw.options fun hp => (hl hp).append.1.values
  · exact sound_passagesFor (sound_reservedPassages fun hp => (hl hp).append.1.without_values)
  · exact sound_passagesFor (sound_registeredPassages hvs _)

lemma Service.outlined {s : Service} (hw : s.WellFormed)
    (hl : P → ∀ v ∈ s.typedValues, ¬ TooLarge v) : Outlined P (.service s) s.outline := by
  have hms : ∀ m ∈ s.methods, Outlined P (.method m) (Node.method m).whole := fun m h =>
    Method.outlined (hw.methods m h) fun hp t ht =>
      (List.forall_mem_append.1 (hl hp)).2 t (List.mem_flatMap.2 ⟨m, h, ht⟩)
  refine .scope s.scripts_outline (List.forall_mem_append.2 ⟨?_, ?_⟩)
  · exact sound_optionPassages rfl hw.options fun hp => (List.forall_mem_append.1 (hl hp)).1
  · exact sound_passagesFor (sound_registeredPassages hms _)

lemma Extension.outlined {e : Extension} (hw : e.WellFormed)
    (hl : P → Writable e.typedValues e.writtenNumbers) : Outlined P (.extension e) e.outline := by
  have hfs : ∀ f ∈ e.fields, Outlined P (.field f) (Node.field f).whole := fun f h =>
    Field.outlined (hw f h) fun hp => Writable.of_mem (hl hp) h
  exact .scope e.scripts_outline (sound_passagesFor (sound_registeredPassages hfs _))

lemma Member.sound_sectionPassages {blocks : List (List Member)}
    (h : ∀ m ∈ blocks.flatten, Outlined P m.node (Member.outline m)) (s : MemberScope) :
    ∀ ps ∈ Member.sectionPassages s blocks, ∀ p ∈ ps, p.Sound P := by
  induction blocks generalizing s with
  | nil => simp [Member.sectionPassages]
  | cons b bs ih =>
    rw [List.flatten_cons, List.forall_mem_append] at h
    simp only [Member.sectionPassages, Member.blockPassages_eq]
    exact List.forall_mem_cons.2 ⟨sound_registeredPassages h.1 s, ih h.2 _⟩

lemma Message.outlined {m : Message} (hw : m.WellFormed)
    (hl : P → Writable m.typedValues m.writtenNumbers) : Outlined P (.message m) m.outline := by
  induction m using Message.induction with
  | step m ih =>
    rw [Message.typedValues_eq, Message.writtenNumbers_eq] at hl
    have hms : ∀ x ∈ m.blocks.flatten, Outlined P x.node (Member.outline x) := by
      intro x hx
      have hwx := hw.members x hx
      have hlx : P → Writable x.typedValues x.writtenNumbers :=
        fun hp => (hl hp).append.2.of_mem hx
      cases hwx with
      | field h => exact Field.outlined h hlx
      | map h => exact MapField.outlined h hlx
      | oneof h => exact Oneof.outlined h hlx
      | message h => exact ih _ hx h hlx
      | enum h => exact EnumDecl.outlined h hlx
    have hn := m.scripts_outline
    rw [Message.outline_eq] at hn ⊢
    refine .scope hn (List.forall_mem_append.2 ⟨List.forall_mem_append.2 ⟨?_, ?_⟩, ?_⟩)
    · exact sound_optionPassages rfl hw.options fun hp => (hl hp).append.1.values
    · exact sound_passagesFor (sound_reservedPassages fun hp => (hl hp).append.1.without_values)
    · exact Member.sound_sectionPassages hms _

lemma Declaration.outlined {d : Declaration} (hw : d.WellFormed)
    (hl : P → Writable d.typedValues d.writtenNumbers) : Outlined P d.node d.outline := by
  cases d with
  | message m => exact Message.outlined hw hl
  | enum e => exact EnumDecl.outlined hw hl
  | service s => exact Service.outlined hw fun hp => (hl hp).values
  | extension e => exact Extension.outlined hw hl

lemma Declaration.sound_blocksOutline {blocks : List (List Declaration)}
    (h : ∀ d ∈ blocks.flatten, Outlined P d.node d.outline) (s : TypeScope) :
    ∀ p ∈ blocksOutline s blocks, p.Sound P := by
  induction blocks generalizing s with
  | nil => simp [blocksOutline]
  | cons b bs ih =>
    rw [List.flatten_cons, List.forall_mem_append] at h
    have hb : (Passage.text [.emit "\n"]).Sound P :=
      .text (.emit _ .nil) rfl (fun _ => rfl) fun _ => .blank
    refine List.forall_mem_cons.2 ⟨hb, List.forall_mem_append.2 ⟨?_, ?_⟩⟩
    · exact sound_registeredPassages h.1 s
    · exact ih h.2 _

namespace File

variable {f : File}

lemma unchecked_part {α : Type} {elements : List α} {script : α → Script}
    (h : ∀ a ∈ elements, (script a).unchecked = script a) :
    Script.unchecked (part elements script) = part elements script := by
  unfold part
  split
  · rfl
  · rw [Script.unchecked_cons, Script.unchecked_flatMap h]
    rfl

lemma unchecked_headScript (f : File) : f.headScript.unchecked = f.headScript := by
  have hp : f.packageScript.unchecked = f.packageScript := by
    unfold packageScript
    split <;> rfl
  have hi : Script.unchecked (part f.imports Import.script) = part f.imports Import.script :=
    unchecked_part fun _ _ => rfl
  have ho : Script.unchecked (part f.options OptionDecl.script) =
      part f.options OptionDecl.script :=
    unchecked_part fun o _ => o.unchecked_script
  simp [headScript, Script.unchecked_cons, Step.unchecked, hp, hi, ho]

lemma fault?_headScript_eq_none : f.headScript.fault? = none ↔
    Script.fault? (part f.options OptionDecl.script) = none := by
  simp [headScript, Step.fault?, f.fault?_packageScript, f.fault?_importPart]

/-- What stands in front of the declarations is shown, and there is something. -/
lemma shows_headScript (hw : f.WellFormed) : ∃ d : List Char → List (List Char), d [] ≠ [] ∧
    (f.headScript.fault? = none → Shows f.headScript d) := by
  have hs : Shows [.emit "syntax = \"proto3\";\n"] fun _ => textDoc "syntax = \"proto3\";" :=
    .emit rfl
  have his := shows_part f.fault?_importPart fun i _ _ => i.shows
  refine ⟨_, ?_, fun hf => (Shows.comment f.comment).append
    (hs.append ((f.shows_package.append his).append
      (shows_part (fault?_headScript_eq_none.1 hf) fun o hm h =>
        o.shows ((hw.options o hm).target ▸ rfl) h)))⟩
  simp [textDoc_ne_nil]

lemma balanced_headScript (f : File) : Balanced f.headScript := by
  refine .comment _ (.emit _ ?_)
  exact (f.balanced_packageScript.append (balanced_part Import.balanced _)).append
    (balanced_part OptionDecl.balanced _)

lemma outlined (hw : f.WellFormed) (hl : P → Writable f.typedValues f.writtenNumbers) :
    Outlined P (.file f) f.outline := by
  have hl : P → Writable (valuesOf f.options) [] ∧ Writable (f.blocks.flatten.flatMap _) _ :=
    fun hp => (hl hp).append
  have hds : ∀ d ∈ f.blocks.flatten, Outlined P d.node d.outline := fun d hd =>
    Declaration.outlined (hw.declarations d hd) fun hp => (hl hp).2.of_mem hd
  obtain ⟨d, hd, hs⟩ := shows_headScript hw
  refine .cons f.scripts_outline f.balanced_headScript f.unchecked_headScript (fun hp => ?_) hs hd
    (Declaration.sound_blocksOutline hds {})
  exact fault?_headScript_eq_none.2 (fault?_optionPart hw (hl hp).1.values)

end File

namespace Node

lemma outlined {n : Node} (hn : n ≠ .bare) (hi : ¬ n.IsInline) (hw : n.WellFormed)
    (hl : P → Writable n.typedValues n.writtenNumbers) : Outlined P n n.outline := by
  cases n with
  | bare => exact absurd rfl hn
  | option o =>
    have ht : o.target.isInline = false := by simpa [IsInline] using hi
    refine .whole o.unchecked_script (fun hp => OptionDecl.fault?_script hw (hl hp).values)
      (o.shows ht) ?_
    unfold OptionDecl.doc
    split <;> simp [textDoc_ne_nil]
  | reservation r => exact Reservation.outlined hl
  | imported i => exact .whole rfl (fun _ => rfl) (fun _ => i.shows) (textDoc_ne_nil _)
  | field f => exact Field.outlined hw hl
  | mapField f => exact MapField.outlined hw hl
  | oneof o => exact Oneof.outlined hw hl
  | enumValue v => exact EnumValue.outlined hw hl
  | enum e => exact EnumDecl.outlined hw hl
  | message m => exact Message.outlined hw hl
  | method m => exact Method.outlined hw fun hp => (hl hp).values
  | service s => exact Service.outlined hw fun hp => (hl hp).values
  | extension e => exact Extension.outlined hw hl
  | file f => exact File.outlined hw hl

/-- The text of the node in a style, when nothing is registered. -/
def printUnchecked (n : Node) (style : Style) : Except PrintError String :=
  let o := Script.run n.script.unchecked (.ofStyle style)
  match o.error with
  | some e => .error e
  | none => .ok (String.ofList o.text)

/-- **Usage checks only stop the text**: a text that is written to its end is the one written
without any registration. With a conflict, the text ends right in front of the first element whose
registration is refused: everything up to there is written, nothing of the element, and nothing
behind it. Without any registration the text goes on with the element, and is written to its end
unless a number has too many digits. -/
theorem print_stops (n : Node) (hw : n.WellFormed) (hl : ∀ v ∈ n.typedValues, ¬ TooLarge v)
    (style : Style) :
    (∀ text, n.print style = .ok text → n.printUnchecked style = .ok text) ∧
    ∀ c, n.print style = .error (.conflict c) →
      ∃ earlier t later, n.sites = earlier ++ t :: later ∧ (∀ u ∈ earlier, u.rejection = none) ∧
        t.rejection = some (.conflict c) ∧
        ∃ level own rest,
          Script.run t.before (.ofStyle style) =
            ⟨(n.emit (.ofStyle style)).text, fresh style level false, none⟩ ∧
          (Script.run t.node.script.unchecked (fresh style level false)).text = own ∧
          (Script.run n.script.unchecked (.ofStyle style)).text =
            (n.emit (.ofStyle style)).text ++ own ++ rest ∧
          ((∀ k ∈ n.writtenNumbers, ¬ Number.tooLong k) → own ≠ [] ∧ n.printUnchecked style =
            .ok (String.ofList ((n.emit (.ofStyle style)).text ++ own ++ rest))) := by
  refine ⟨fun text hp => ?_, fun c hp => ?_⟩
  · have hu := Script.unchecked_of_fault? (print_eq_ok.1 hp).1
    rw [printUnchecked, hu]
    exact hp
  · have hf := print_eq_error.1 hp
    have hn : n ≠ .bare := by
      rintro rfl
      simp [script, Step.fault?] at hf
    have hi : ¬ n.IsInline := by
      intro hi
      cases n with
      | option o =>
        rw [script, OptionDecl.fault?_script hw hl] at hf
        cases hf
      | _ => exact hi
    have ho := outlined (P := ∀ k ∈ n.writtenNumbers, ¬ Number.tooLong k) hn hi hw fun hk =>
      ⟨hl, hk⟩
    have ht := Passage.traced_scripts ho.sound
    rw [ho.script] at ht
    obtain ⟨earlier, t, later, hs, he, hstop⟩ := ht.stops (.conflict c) hf
    obtain ⟨level, rest, hb, hu⟩ := hstop.place style 0
    refine ⟨earlier, t, later, hs, he, hstop.rejection, level, _, rest, hb, rfl, hu, fun hk => ?_⟩
    have hc := ht.sound hk
    obtain ⟨ls, hls⟩ := ht.lays hc
    have hr : (Script.run n.script.unchecked (.ofStyle style)).error = none :=
      congrArg Outcome.error (hls.run style 0)
    refine ⟨(hstop.visible hc).text_ne_nil style level, ?_⟩
    rw [printUnchecked, hr]
    exact congrArg (Except.ok <| String.ofList ·) hu

/-- The member of the oneof takes a reserved number, so the text stops in front of the oneof. -/
theorem print_stops_sample :
    (message (.sample 3)).WellFormed ∧ (∀ v ∈ (message (.sample 3)).typedValues, ¬ TooLarge v) ∧
      (message (.sample 3)).print .usual = .error (.conflict (.reservedNumber 3)) ∧
      ((message (.sample 3)).emit (.ofStyle .usual)).text =
        ("// A piece of music\nmessage Track \x7b\n\n  option deprecated = true;\n\n" ++
          "  reserved 2, 3;\n\n  string title = 1;\n\n").toList ∧
      ∃ rest, rest ≠ [] ∧ (message (.sample 3)).printUnchecked .usual =
        .ok (String.ofList (((message (.sample 3)).emit (.ofStyle .usual)).text ++ rest)) := by
  have hw : (message (.sample 3)).WellFormed := Message.sample_wellFormed (by decide)
  have hp : (message (.sample 3)).print .usual = .error (.conflict (.reservedNumber 3)) :=
    print_eq_error.2 (by decide +kernel)
  obtain ⟨-, h⟩ := print_stops (message (.sample 3)) hw (Message.sample_values 3) .usual
  obtain ⟨-, -, -, -, -, -, -, own, rest, -, -, -, hs⟩ := h _ hp
  obtain ⟨hn, hu⟩ := hs (Message.sample_numbers (by decide))
  refine ⟨hw, Message.sample_values 3, hp, by decide +kernel, own ++ rest, ?_, ?_⟩
  · exact List.append_ne_nil_of_left_ne_nil hn rest
  · rw [hu, List.append_assoc]

end Node

end ProtoSchema
