import ProtoSchema.Proofs.Literals

/-!
The level of a writer behind an error.

A section lowers the level again whatever happens in it. The body of a method and the body of a
message value lower it only when they come to their end, so an error within one leaves the level
raised by a step. Literals are all that can fail there: a conflict is met in front of a declaration,
where no such body is open.
-/

namespace ProtoSchema

open Layout Print Usage

/-! ### What an error leaves open -/

namespace OptionDecl

/-- The bodies that the option opens around its literals. -/
def bodies (o : OptionDecl) : Nat :=
  if o.target.isInline then 0
  else match o.value with
    | .literal _ _ => 0
    | .entries _ => 1

/-- The bodies around the literals of an option that is part of a declaration, without
the sections. -/
def nested (o : OptionDecl) : Nat := o.bodies + if o.target = .method then 1 else 0

end OptionDecl

/-- An option with the bodies around its literals. -/
abbrev Risk := OptionDecl × Nat

/-- A literal of the option fails. -/
def Risk.fails (r : Risk) : Bool := r.1.script.fault?.isSome

/-- The bodies that an error leaves open, given all options in the order in which they
are written. -/
def leftOpen (rs : List Risk) : PrintError → Nat
  | .literal _ => ((rs.find? Risk.fails).map Prod.snd).getD 0
  | _ => 0

/-- The options of a declaration. -/
def risksOf (options : List OptionDecl) : List Risk := options.map fun o => (o, o.nested)

def Node.risks : Node → List Risk
  | .option o => [(o, o.bodies)]
  | n => risksOf n.allOptions

lemma risksOf_append (os ps : List OptionDecl) : risksOf (os ++ ps) = risksOf os ++ risksOf ps :=
  List.map_append

lemma risksOf_flatMap {α : Type} (options : α → List OptionDecl) (as : List α) :
    risksOf (as.flatMap options) = as.flatMap fun a => risksOf (options a) := List.map_flatMap

lemma leftOpen_append_of_fails {rs : List Risk} (h : ∃ r ∈ rs, r.fails) (qs : List Risk)
    (e : PrintError) : leftOpen (rs ++ qs) e = leftOpen rs e := by
  cases e with
  | literal f =>
    obtain ⟨r, hr⟩ := Option.isSome_iff_exists.1 (List.find?_isSome.2 h)
    simp [leftOpen, hr]
  | _ => rfl

lemma leftOpen_append_of_sound {rs : List Risk} (h : ∀ r ∈ rs, r.fails = false) (qs : List Risk)
    (e : PrintError) : leftOpen (rs ++ qs) e = leftOpen qs e := by
  cases e with
  | literal f =>
    have hr : rs.find? Risk.fails = none := List.find?_eq_none.2 fun r hm => by simp [h r hm]
    simp [leftOpen, hr]
  | _ => rfl

/-! ### Scripts that leave bodies open -/

namespace Print

/-- The error of a literal, if it is an error at all. -/
def OnlyLiterals (s : Script) : Prop := ∀ e, s.fault? = some e → ∃ f, e = .literal f

lemma OnlyLiterals.flatMap {α : Type} {script : α → Script} {as : List α}
    (h : ∀ a ∈ as, OnlyLiterals (script a)) : OnlyLiterals (as.flatMap script) := by
  induction as with
  | nil => exact fun e he => by cases he
  | cons a as ih =>
    obtain ⟨ha, has⟩ := List.forall_mem_cons.1 h
    intro e he
    rw [List.flatMap_cons, Script.fault?_append, Option.or_eq_some_iff] at he
    rcases he with he | ⟨-, he⟩
    · exact ha e he
    · exact ih has e he

/-- The script has the options written in it, and an error leaves the bodies open that
they tell of. -/
structure Leaves (s : Script) (rs : List Risk) : Prop where
  balanced : Balanced s
  sound : s.fault? = none → ∀ r ∈ rs, r.fails = false
  fails : ∀ f, s.fault? = some (.literal f) → ∃ r ∈ rs, r.fails
  level : ∀ e, s.fault? = some e → ∀ w : Writer,
    (Script.run s w).writer.level = w.level + leftOpen rs e * w.style.indentSize

namespace Leaves

variable {s t : Script} {rs qs : List Risk}

/-- Without a fault there is nothing to leave open. -/
lemma silent (hb : Balanced s) (hf : s.fault? = none) : Leaves s [] :=
  ⟨hb, by simp, fun f h => by simp [hf] at h, fun e h => by simp [hf] at h⟩

lemma nil : Leaves [] [] := silent .nil rfl

lemma emit (text : String) : Leaves [.emit text] [] := silent (.emit text .nil) rfl

lemma comment (c : List String) : Leaves [.comment c] [] := silent (.comment c .nil) rfl

lemma fail {error : PrintError} (hl : ∀ e, error ≠ .layout e) (hf : ∀ f, error ≠ .literal f) :
    Leaves [.fail error] [] := by
  have hs : Script.fault? [.fail error] = some error := rfl
  refine ⟨.fail hl .nil, by simp [hs], fun f h => ?_, fun e h w => ?_⟩
  · exact absurd (Option.some.inj (hs.symm.trans h)) (hf f)
  · obtain rfl : error = e := Option.some.inj (hs.symm.trans h)
    have hw : (Script.run [.fail error] w).writer = w := by
      rw [Script.run, Step.run, Outcome.failed, Outcome.andThen_of_error rfl]
    have ho : leftOpen [] error = 0 := by cases error <;> rfl
    rw [hw, ho, Nat.zero_mul, Nat.add_zero]

lemma numbered (numbers : List Int) (text : String) : Leaves [.numbered numbers text] [] := by
  rcases Step.numbered_eq numbers text with he | he
  · exact he ▸ emit text
  · exact he ▸ fail (by simp) (by simp)

lemma guard (r : Option Rejection) : Leaves (guard r) [] := by
  cases r with
  | none => exact nil
  | some r =>
    have hr : (∀ e, PrintError.ofRejection r ≠ .layout e) ∧
        ∀ f, PrintError.ofRejection r ≠ .literal f := by
      cases r <;> simp [PrintError.ofRejection]
    exact fail hr.1 hr.2

lemma append (hs : Leaves s rs) (ht : Leaves t qs) : Leaves (s ++ t) (rs ++ qs) := by
  cases hf : s.fault? with
  | some e =>
    have hst : Script.fault? (s ++ t) = some e := by simp [hf]
    refine ⟨hs.balanced.append ht.balanced, by simp [hst], fun f h => ?_, fun d h w => ?_⟩
    · obtain ⟨r, hr, hrf⟩ := hs.fails f (hf.trans (hst.symm.trans h))
      exact ⟨r, List.mem_append_left qs hr, hrf⟩
    · obtain rfl : e = d := Option.some.inj (hst.symm.trans h)
      have hw : (Script.run s w).error = some e := (hs.balanced.runs w).error.trans hf
      have ho : leftOpen (rs ++ qs) e = leftOpen rs e := by
        cases e with
        | literal f => exact leftOpen_append_of_fails (hs.fails f hf) qs _
        | _ => rfl
      rw [Script.run_append, Outcome.andThen_of_error hw, hs.level e hf, ho]
  | none =>
    have hst : Script.fault? (s ++ t) = t.fault? := by simp [hf]
    have hsr := hs.sound hf
    refine ⟨hs.balanced.append ht.balanced, fun h => ?_, fun f h => ?_, fun e h w => ?_⟩
    · exact List.forall_mem_append.2 ⟨hsr, ht.sound (hst.symm.trans h)⟩
    · obtain ⟨r, hr, hrf⟩ := ht.fails f (hst.symm.trans h)
      exact ⟨r, List.mem_append_right rs hr, hrf⟩
    · have hw := hs.balanced.runs w
      have hl : (Script.run s w).writer.level = w.level := hw.level hf
      have he := ht.level e (hst.symm.trans h) (Script.run s w).writer
      rw [hl, hw.size] at he
      rw [Script.run_append, Outcome.andThen_of_no_error (hw.error.trans hf),
        leftOpen_append_of_sound hsr]
      exact he

/-- What nothing is left open of can stand in front. -/
lemma cons {step : Step} (h : Leaves [step] []) (ht : Leaves t qs) : Leaves (step :: t) qs :=
  h.append ht

/-- A section is left whatever happens in it. -/
lemma body (h : Leaves s rs) : Leaves [.body s] rs := by
  have hf : Script.fault? [.body s] = s.fault? := by simp [Step.fault?]
  refine ⟨.body h.balanced .nil, fun hn => h.sound (hf.symm.trans hn),
    fun f he => h.fails f (hf.symm.trans he), fun e he w => ?_⟩
  have hs := hf.symm.trans he
  have hl := h.level e hs w.stepIn
  have hz := (h.balanced.runs w.stepIn).size
  have hi : w.stepIn.style.indentSize = w.style.indentSize := rfl
  rw [Writer.stepIn_level, hi] at hl
  rw [hi] at hz
  have hr : (Script.run [.body s] w).writer = (Script.run s w.stepIn).writer.stepOut := by
    have hu : (Step.run (.body s) w).writer = (Script.run s w.stepIn).writer.stepOut := by
      rw [Step.run, Writer.indent_none]
      simp only [Outcome.leaveBody]
      rw [Writer.unindent_none (by omega)]
    have hb : (Step.run (.body s) w).error = some e :=
      (runs_body h.balanced.runs w).error.trans hs
    rw [Script.run, Outcome.andThen_of_error hb, hu]
  rw [hr, Writer.stepOut_level, hl, hz]
  omega

/-- A body between two steps stays open if a literal in it fails. -/
lemma indented (h : Leaves s rs) (ho : OnlyLiterals s) :
    Leaves (.indent none :: (s ++ [.unindent none])) (rs.map fun r => (r.1, r.2 + 1)) := by
  have hf : Script.fault? (.indent none :: (s ++ [.unindent none])) = s.fault? := by
    simp [Step.fault?]
  refine ⟨.indented h.balanced .nil, fun hn => ?_, fun f he => ?_, fun e he w => ?_⟩
  · exact List.forall_mem_map.2 fun r hr => h.sound (hf.symm.trans hn) r hr
  · obtain ⟨r, hr, hrf⟩ := h.fails f (hf.symm.trans he)
    exact ⟨_, List.mem_map_of_mem hr, hrf⟩
  · have hs := hf.symm.trans he
    obtain ⟨f, rfl⟩ := ho e hs
    obtain ⟨r, hr⟩ := Option.isSome_iff_exists.1 (List.find?_isSome.2 (h.fails f hs))
    have hl := h.level _ hs w.stepIn
    have hw : (Script.run s w.stepIn).error = some (.literal f) :=
      (h.balanced.runs w.stepIn).error.trans hs
    have hm : (rs.map fun r => (r.1, r.2 + 1)).find? Risk.fails = some (r.1, r.2 + 1) := by
      rw [List.find?_map]
      exact congrArg (Option.map fun r : Risk => (r.1, r.2 + 1)) hr
    have hi : w.stepIn.style.indentSize = w.style.indentSize := rfl
    rw [Writer.stepIn_level, hi] at hl
    rw [run_indented, Outcome.andThen_of_error hw, hl]
    simp only [leftOpen, hr, hm, Option.map_some, Option.getD_some, Nat.succ_mul]
    omega

lemma flatMap {α : Type} {script : α → Script} {risks : α → List Risk} {as : List α}
    (h : ∀ a ∈ as, Leaves (script a) (risks a)) :
    Leaves (as.flatMap script) (as.flatMap risks) := by
  induction as with
  | nil => exact nil
  | cons a as ih =>
    obtain ⟨ha, has⟩ := List.forall_mem_cons.1 h
    exact ha.append (ih has)

lemma registered {σ α : Type} {register : σ → α → σ × Option Rejection} {script : α → Script}
    {risks : α → List Risk} {as : List α} (h : ∀ a ∈ as, Leaves (script a) (risks a)) (s : σ) :
    Leaves (registered register script s as).1 (as.flatMap risks) := by
  induction as generalizing s with
  | nil => exact nil
  | cons a as ih =>
    obtain ⟨ha, has⟩ := List.forall_mem_cons.1 h
    rw [registered_cons]
    exact ((guard _).append ha).append (ih has _)

lemma intercalate {α : Type} {script : α → Script} {risks : α → List Risk} {as : List α}
    (between : String) (h : ∀ a ∈ as, Leaves (script a) (risks a)) :
    Leaves (List.intercalate [.emit between] (as.map script)) (as.flatMap risks) := by
  induction as with
  | nil => exact nil
  | cons a as ih =>
    obtain ⟨ha, has⟩ := List.forall_mem_cons.1 h
    by_cases hn : as = []
    · subst hn
      simpa using ha
    · have hm : as.map script ≠ [] := by simpa using hn
      rw [List.map_cons, List.intercalate_cons_of_ne_nil hm, List.flatMap_cons]
      simpa using (ha.append (emit between)).append (ih has)

lemma raised (h : Leaves s rs) {w : Writer} {e : PrintError}
    (he : (Script.run s w).error = some e) :
    (Script.run s w).writer.level = w.level + leftOpen rs e * w.style.indentSize ∧
      ((Script.run s w).writer.level = w.level ↔ leftOpen rs e = 0) := by
  have hl := h.level e ((h.balanced.runs w).error.symm.trans he) w
  have hz : leftOpen rs e * w.style.indentSize = 0 ↔ leftOpen rs e = 0 :=
    Nat.mul_eq_zero.trans (or_iff_left (Nat.ne_of_gt w.style.indentSize_pos))
  exact ⟨hl, by rw [hl, Nat.add_eq_left, hz]⟩

end Leaves

/-! ### Sections -/

/-- Sections one below another, with the options written in them. -/
def SectionsLeave (sections : List Script) (rs : List Risk) : Prop :=
  Leaves (sections.flatMap fun s => [.emit "\n", .body s]) rs

namespace SectionsLeave

variable {ss ts : List Script} {rs qs : List Risk}

lemma nil : SectionsLeave [] [] := Leaves.nil

lemma single {s : Script} (h : Leaves s rs) : SectionsLeave [s] rs := (Leaves.emit "\n").cons h.body

lemma append (hs : SectionsLeave ss rs) (ht : SectionsLeave ts qs) :
    SectionsLeave (ss ++ ts) (rs ++ qs) := by
  unfold SectionsLeave at hs ht ⊢
  rw [List.flatMap_append]
  exact hs.append ht

lemma sectionFor {α : Type} {as : List α} {script : Script} {risks : α → List Risk}
    (h : Leaves script (as.flatMap risks)) :
    SectionsLeave (sectionFor as script) (as.flatMap risks) := by
  unfold Print.sectionFor
  split
  · next he =>
    obtain rfl : as = [] := List.isEmpty_iff.1 he
    exact nil
  · exact single h

lemma scope (h : SectionsLeave ss rs) (header : String) : Leaves (scope header ss) rs := by
  have hn : Leaves (if ss.isEmpty then [] else [.emit "\n"]) [] := by
    split
    · exact .nil
    · exact .emit "\n"
  have hs := (Leaves.emit (header ++ " \x7b")).append ((hn.append h).append (.emit "\x7d\n"))
  simpa [Print.scope] using hs

end SectionsLeave

end Print

/-! ### Options -/

namespace Print

/-- Steps that only write, or fail with a literal. -/
def Writing (s : Script) : Prop :=
  ∀ step ∈ s, (∃ text, step = .emit text) ∨ ∃ f, step = .fail (.literal f)

namespace Writing

variable {s t : Script}

lemma append (hs : Writing s) (ht : Writing t) : Writing (s ++ t) :=
  List.forall_mem_append.2 ⟨hs, ht⟩

lemma emit (text : String) : Writing [.emit text] :=
  List.forall_mem_singleton.2 (.inl ⟨text, rfl⟩)

lemma literal (before : String) (literal : Except FormatError String) (after : String) :
    Writing [.literal before literal after] := by
  cases literal with
  | ok text => exact emit _
  | error f => exact List.forall_mem_singleton.2 (.inr ⟨f, rfl⟩)

lemma entries (es : List OptionEntry) (after : String) :
    Writing (es.map (OptionEntry.step · after)) := by
  refine List.forall_mem_map.2 fun e _ => ?_
  exact literal _ _ _ _ List.mem_cons_self

lemma level (h : Writing s) (w : Writer) : (Script.run s w).writer.level = w.level := by
  induction s generalizing w with
  | nil => rfl
  | cons step s ih =>
    obtain ⟨hstep, hs⟩ := List.forall_mem_cons.1 h
    rw [Script.run]
    rcases hstep with ⟨text, rfl⟩ | ⟨f, rfl⟩
    · rw [Step.run, Outcome.andThen_of_no_error rfl]
      exact (ih hs _).trans (congrArg Prod.fst (w.pace_emit _))
    · rw [Step.run, Outcome.andThen_of_error rfl]
      rfl

lemma onlyLiterals (h : Writing s) : OnlyLiterals s := by
  induction s with
  | nil => exact fun e he => by cases he
  | cons step s ih =>
    obtain ⟨hstep, hs⟩ := List.forall_mem_cons.1 h
    intro e he
    rcases hstep with ⟨text, rfl⟩ | ⟨f, rfl⟩
    · exact ih hs e he
    · exact ⟨f, (Option.some.inj he).symm⟩

lemma balanced (h : Writing s) : Balanced s := by
  induction s with
  | nil => exact .nil
  | cons step s ih =>
    obtain ⟨hstep, hs⟩ := List.forall_mem_cons.1 h
    rcases hstep with ⟨text, rfl⟩ | ⟨f, rfl⟩
    · exact .emit text (ih hs)
    · exact .fail (by simp) (ih hs)

/-- What is written of an option without a body of its own. -/
lemma leaves (h : Writing s) {o : OptionDecl} (hf : s.fault? = o.script.fault?) :
    Leaves s [(o, 0)] := by
  refine ⟨h.balanced, fun hn => ?_, fun f he => ⟨_, List.mem_cons_self, ?_⟩, fun e he w => ?_⟩
  · exact List.forall_mem_singleton.2 (by simp [Risk.fails, ← hf, hn])
  · simp [Risk.fails, ← hf, he]
  · have ho : leftOpen [(o, 0)] e = 0 := by
      cases e with
      | literal f => simp [leftOpen, Risk.fails, ← hf, he]
      | _ => rfl
    rw [h.level, ho, Nat.zero_mul, Nat.add_zero]

end Writing

end Print

namespace OptionDecl

variable {o : OptionDecl}

lemma writing_inlineScript (o : OptionDecl) : Writing o.inlineScript := by
  unfold inlineScript
  split
  · exact .literal _ _ _
  · exact (Writing.emit _).append ((Writing.entries _ _).append (.emit _))

lemma leaves_inlineScript (h : o.target.isInline) : Leaves o.inlineScript [(o, 0)] := by
  refine o.writing_inlineScript.leaves ?_
  rw [script, if_pos h]

lemma leaves_statementScript (h : o.target.isInline = false) :
    Leaves o.statementScript [(o, o.bodies)] ∧ OnlyLiterals o.statementScript := by
  have hf : o.script.fault? = o.statementScript.fault? := by
    rw [script, if_neg (by simp [h])]
    rfl
  cases hv : o.value with
  | literal type value =>
    have hs : Writing o.statementScript := by
      rw [statementScript, hv]
      exact .literal _ _ _
    have hb : o.bodies = 0 := by simp [bodies, hv]
    rw [hb]
    exact ⟨hs.leaves hf.symm, hs.onlyLiterals⟩
  | entries es =>
    have he : Writing (es.map (OptionEntry.step · "\n")) := .entries es "\n"
    have hs : o.statementScript = .emit ("option " ++ o.writtenName ++ " = \x7b\n") ::
        ((.indent none :: (es.map (OptionEntry.step · "\n") ++ [.unindent none])) ++
          [.emit "\x7d;\n"]) := by
      simp [statementScript, hv]
    have hsf : o.statementScript.fault? = Script.fault? (es.map (OptionEntry.step · "\n")) := by
      rw [hs]
      simp [Step.fault?]
    have hb : o.bodies = 1 := by simp [bodies, hv, h]
    have hl := (he.leaves (hsf.symm.trans hf.symm)).indented he.onlyLiterals
    rw [hb]
    refine ⟨?_, fun e h => he.onlyLiterals e (hsf.symm.trans h)⟩
    rw [hs]
    exact (Leaves.emit _).cons (hl.append (.emit _))

lemma leaves (o : OptionDecl) : Leaves o.script [(o, o.bodies)] ∧ OnlyLiterals o.script := by
  cases h : o.target.isInline with
  | true =>
    have hb : o.bodies = 0 := by simp [bodies, h]
    rw [script, if_pos h, hb]
    exact ⟨leaves_inlineScript h, o.writing_inlineScript.onlyLiterals⟩
  | false =>
    obtain ⟨hl, ho⟩ := leaves_statementScript h
    rw [script, if_neg (by simp [h])]
    exact ⟨(Leaves.comment _).cons hl, ho⟩

end OptionDecl

/-! ### Declarations -/

lemma OptionDecl.nested_of_inline {o : OptionDecl} (h : o.target.isInline) : o.nested = 0 := by
  have hm : o.target ≠ .method := by
    intro he
    simp [he, OptionTarget.isInline] at h
  simp [nested, bodies, h, hm]

lemma OptionDecl.nested_of_ne_method {o : OptionDecl} (h : o.target ≠ .method) :
    o.nested = o.bodies := by
  simp [nested, h]

lemma risksOf_eq_flatMap (options : List OptionDecl) :
    risksOf options = options.flatMap fun o => [(o, o.nested)] := List.map_eq_flatMap

section Leaves

variable {target : OptionTarget} {options : List OptionDecl}

lemma leaves_lineScript (comment : List String) (number : Int) (text : String)
    (ht : target.isInline) (h : ∀ o ∈ options, o.WellFormed target) :
    Leaves (lineScript comment number text options) (risksOf options) := by
  have hi : ∀ o ∈ options, Leaves o.inlineScript [(o, o.nested)] := by
    intro o ho
    have hot : o.target.isInline := (h o ho).target ▸ ht
    rw [OptionDecl.nested_of_inline hot]
    exact OptionDecl.leaves_inlineScript hot
  have hb : Leaves (OptionDecl.bracketScript options) (risksOf options) := by
    rw [risksOf_eq_flatMap]
    unfold OptionDecl.bracketScript
    split
    · next he =>
      rw [List.isEmpty_iff.1 he]
      exact .nil
    · simpa using (Leaves.emit " [").append ((Leaves.intercalate ", " hi).append (.emit "]"))
  have hs := (Leaves.numbered [number] text).append (hb.append (.emit ";\n"))
  rw [List.append_nil, List.nil_append] at hs
  exact (Leaves.comment comment).cons hs

lemma leaves_optionSection (ht : target ≠ .method) (h : ∀ o ∈ options, o.WellFormed target) :
    SectionsLeave (optionSection options) (risksOf options) := by
  rw [risksOf_eq_flatMap]
  refine .sectionFor (.flatMap fun o ho => ?_)
  have hot : o.target ≠ .method := (h o ho).target ▸ ht
  rw [OptionDecl.nested_of_ne_method hot]
  exact o.leaves.1

lemma Reservation.leaves (r : Reservation) : Leaves r.script [] :=
  (Leaves.comment r.comment).cons (.numbered _ _)

lemma leaves_reservations (reservations : List Reservation) :
    SectionsLeave (sectionFor reservations (reservedScript reservations).1) [] := by
  have h : Leaves (reservedScript reservations).1 (reservations.flatMap fun _ => []) :=
    .registered (fun r _ => r.leaves) _
  have hn : reservations.flatMap (fun _ => ([] : List Risk)) = [] := by simp
  exact hn ▸ SectionsLeave.sectionFor h

lemma leaves_fieldScript {α : Type} {identity : α → FieldIdentity} {script : α → Script}
    {options : α → List OptionDecl} {as : List α}
    (h : ∀ a ∈ as, Leaves (script a) (risksOf (options a))) (s : FieldScope) :
    SectionsLeave (sectionFor as (fieldScript identity script s as))
      (risksOf (as.flatMap options)) := by
  rw [risksOf_flatMap]
  exact .sectionFor (.registered h s)

lemma Field.leaves {f : Field} (h : f.WellFormed) : Leaves f.script (risksOf f.options) :=
  leaves_lineScript _ _ _ rfl h.options

lemma MapField.leaves {f : MapField} (h : f.WellFormed) : Leaves f.script (risksOf f.options) :=
  leaves_lineScript _ _ _ rfl h.options

lemma EnumValue.leaves {v : EnumValue} (h : v.WellFormed) : Leaves v.script (risksOf v.options) :=
  leaves_lineScript _ _ _ rfl h.options

lemma Oneof.leaves {o : Oneof} (h : o.WellFormed) : Leaves o.script (risksOf o.allOptions) := by
  have hm : Leaves (o.members.flatMap Field.script)
      (o.members.flatMap fun f => risksOf f.options) :=
    .flatMap fun f hf => Field.leaves (h.members f hf).1
  rw [allOptions, risksOf_append, risksOf_flatMap]
  exact (Leaves.comment _).cons
    (((leaves_optionSection (by decide) h.options).append (.sectionFor hm)).scope _)

lemma EnumDecl.leaves {e : EnumDecl} (h : e.WellFormed) :
    Leaves e.script (risksOf e.allOptions) := by
  have hv (s) : SectionsLeave
      (sectionFor e.values (fieldScript EnumValue.identity EnumValue.script s e.values))
      (risksOf (e.values.flatMap EnumValue.options)) :=
    leaves_fieldScript (fun v hv => EnumValue.leaves (h.values v hv)) s
  have hs := ((leaves_optionSection (by decide) h.options).append
    (leaves_reservations e.reservations)).append (hv (reservedScript e.reservations).2)
  rw [List.append_nil] at hs
  rw [allOptions, risksOf_append]
  exact (Leaves.comment _).cons (hs.scope _)

/-- The options of a method are in one body more. -/
lemma Method.leaves {m : Method} (h : m.WellFormed) : Leaves m.script (risksOf m.options) := by
  have hs : Leaves (m.options.flatMap OptionDecl.script)
      (m.options.flatMap fun o => [(o, o.bodies)]) :=
    .flatMap fun o _ => o.leaves.1
  have ho : OnlyLiterals (m.options.flatMap OptionDecl.script) := .flatMap fun o _ => o.leaves.2
  have hr : (m.options.flatMap fun o => [(o, o.bodies)]).map (fun r : Risk => (r.1, r.2 + 1)) =
      risksOf m.options := by
    rw [← List.map_eq_flatMap, List.map_map]
    exact List.map_congr_left fun o hm => by simp [OptionDecl.nested, (h.options o hm).target]
  unfold script
  split
  · next he =>
    rw [List.isEmpty_iff.1 he]
    exact (Leaves.comment _).cons ((Leaves.emit _).cons (.emit _))
  · have hb := (Leaves.emit " \x7b\n").append ((hs.indented ho).append (.emit "\x7d\n"))
    rw [hr, List.append_nil, List.nil_append] at hb
    simpa using (Leaves.comment m.comment).cons ((Leaves.emit m.signature).cons hb)

lemma Service.leaves {s : Service} (h : s.WellFormed) : Leaves s.script (risksOf s.allOptions) := by
  rw [allOptions, risksOf_append]
  exact (Leaves.comment _).cons (((leaves_optionSection (by decide) h.options).append
    (leaves_fieldScript (fun m hm => Method.leaves (h.methods m hm)) {})).scope _)

lemma Extension.leaves {e : Extension} (h : e.WellFormed) :
    Leaves e.script (risksOf e.allOptions) :=
  (Leaves.comment _).cons ((leaves_fieldScript (fun f hf => Field.leaves (h f hf)) {}).scope _)

/-! ### Nested declarations -/

lemma Member.leaves_sections {blocks : List (List Member)}
    (h : ∀ m ∈ blocks.flatten, Leaves m.script (risksOf m.allOptions)) (s : MemberScope) :
    SectionsLeave (Member.sections s blocks)
      (risksOf (blocks.flatten.flatMap Member.allOptions)) := by
  induction blocks generalizing s with
  | nil => exact .nil
  | cons b bs ih =>
    rw [List.flatten_cons, List.forall_mem_append] at h
    rw [List.flatten_cons, List.flatMap_append, risksOf_append, risksOf_flatMap, Member.sections,
      Member.blockScript_eq]
    exact (SectionsLeave.single (.registered h.1 s)).append (ih h.2 _)

lemma Message.leaves {m : Message} (h : m.WellFormed) : Leaves m.script (risksOf m.allOptions) := by
  induction m using Message.induction with
  | step m ih =>
    have hm : ∀ x ∈ m.blocks.flatten, Leaves x.script (risksOf x.allOptions) := by
      intro x hx
      have hw := h.members x hx
      cases hw with
      | field hf => exact Field.leaves hf
      | map hf => exact MapField.leaves hf
      | oneof ho => exact Oneof.leaves ho
      | message hn => exact ih _ hx hn
      | enum he => exact EnumDecl.leaves he
    have hs := ((leaves_optionSection (by decide) h.options).append
      (leaves_reservations m.reservations)).append
        (Member.leaves_sections hm ⟨(reservedScript m.reservations).2, { owner := some m.name }⟩)
    rw [List.append_nil] at hs
    rw [Message.script_eq, Message.allOptions_eq, risksOf_append]
    exact (Leaves.comment m.comment).cons (hs.scope _)

lemma Declaration.leaves {d : Declaration} (h : d.WellFormed) :
    Leaves d.script (risksOf d.allOptions) := by
  cases d with
  | message m => exact Message.leaves h
  | enum e => exact EnumDecl.leaves h
  | service s => exact Service.leaves h
  | extension e => exact Extension.leaves h

lemma Declaration.leaves_blocksScript {blocks : List (List Declaration)}
    (h : ∀ d ∈ blocks.flatten, d.WellFormed) (s : TypeScope) :
    Leaves (blocksScript s blocks) (risksOf (blocks.flatten.flatMap Declaration.allOptions)) := by
  induction blocks generalizing s with
  | nil => exact .nil
  | cons b bs ih =>
    rw [List.flatten_cons, List.forall_mem_append] at h
    have hb : Leaves (registered register script s b).1 (b.flatMap fun d => risksOf d.allOptions) :=
      .registered (fun d hd => Declaration.leaves (h.1 d hd)) s
    rw [List.flatten_cons, List.flatMap_append, risksOf_append, risksOf_flatMap]
    exact (Leaves.emit "\n").cons (hb.append (ih h.2 _))

lemma File.leaves_part {α : Type} {script : α → Script} {risks : α → List Risk} {elements : List α}
    (h : ∀ a ∈ elements, Leaves (script a) (risks a)) :
    Leaves (part elements script) (elements.flatMap risks) := by
  unfold part
  split
  · next he =>
    rw [List.isEmpty_iff.1 he]
    exact .nil
  · exact (Leaves.emit "\n").cons (.flatMap h)

lemma File.leaves {f : File} (h : f.WellFormed) : Leaves f.script (risksOf f.allOptions) := by
  have hp : Leaves f.packageScript [] := by
    unfold packageScript
    split
    · exact .nil
    · exact .emit _
  have hi : Leaves (part f.imports Import.script) (f.imports.flatMap fun _ => []) :=
    leaves_part fun i _ => .emit _
  have ho : Leaves (part f.options OptionDecl.script) (risksOf f.options) := by
    rw [risksOf_eq_flatMap]
    refine leaves_part fun o hm => ?_
    have ht : o.target ≠ .method := by
      rw [(h.options o hm).target]
      decide
    rw [OptionDecl.nested_of_ne_method ht]
    exact o.leaves.1
  have hn : f.imports.flatMap (fun _ => ([] : List Risk)) = [] := by simp
  rw [hn] at hi
  have hs := ((hp.append hi).append ho).append (Declaration.leaves_blocksScript h.declarations {})
  rw [allOptions, risksOf_append]
  exact (Leaves.comment f.comment).cons ((Leaves.emit "syntax = \"proto3\";\n").cons hs)

namespace Node

lemma leaves {n : Node} (h : n.WellFormed) : Leaves n.script n.risks := by
  cases n with
  | bare => exact .fail (by simp) (by simp)
  | option o => exact o.leaves.1
  | reservation r => exact r.leaves
  | imported i => exact .emit _
  | field f => exact Field.leaves h
  | mapField f => exact MapField.leaves h
  | oneof o => exact Oneof.leaves h
  | enumValue v => exact EnumValue.leaves h
  | enum e => exact EnumDecl.leaves h
  | message m => exact Message.leaves h
  | method m => exact Method.leaves h
  | service s => exact Service.leaves h
  | extension e => exact Extension.leaves h
  | file f => exact File.leaves h

lemma leaves_sections {sections : List (List Node)} (h : ∀ ns ∈ sections, ∀ n ∈ ns, n.WellFormed) :
    SectionsLeave (sections.map (·.flatMap script)) (sections.flatten.flatMap risks) := by
  induction sections with
  | nil => exact .nil
  | cons ns sections ih =>
    obtain ⟨hns, hs⟩ := List.forall_mem_cons.1 h
    rw [List.map_cons, List.flatten_cons, List.flatMap_append]
    exact (SectionsLeave.single (.flatMap fun n hn => leaves (hns n hn))).append (ih hs)

/-- **Levels behind errors**: when a node fails, or any section of nodes, the level of the
writer is what it was, but for the bodies of a method or of a message value around a literal
that fails. Sections are always left, so the level is the one from before if and only if no such
body is open. -/
theorem level_of_error (w : Writer) (e : PrintError) :
    (∀ n : Node, n.WellFormed → (n.emit w).error = some e →
      (n.emit w).writer.level = w.level + leftOpen n.risks e * w.style.indentSize ∧
      ((n.emit w).writer.level = w.level ↔ leftOpen n.risks e = 0)) ∧
    ∀ (header : String) (sections : List (List Node)), (∀ ns ∈ sections, ∀ n ∈ ns, n.WellFormed) →
      let o := Script.run (scope header (sections.map (·.flatMap script))) w
      o.error = some e →
        o.writer.level =
          w.level + leftOpen (sections.flatten.flatMap risks) e * w.style.indentSize ∧
        (o.writer.level = w.level ↔ leftOpen (sections.flatten.flatMap risks) e = 0) := by
  exact ⟨fun n hn => (leaves hn).raised,
    fun header sections hs => ((leaves_sections hs).scope header).raised⟩

/-- A method with the option `cost`, which no floating point number comes near. -/
def costly (value : OptionValue) : Node :=
  method
    { name := "Get", request := "Key", response := "Item"
      options := [⟨.method, "cost", [], value⟩] }

lemma costly_wellFormed {value : OptionValue} (h : value.WellFormed) :
    (costly value).WellFormed := by
  have ho : OptionDecl.WellFormed .method ⟨.method, "cost", [], value⟩ :=
    ⟨rfl, fun hi => absurd hi Bool.false_ne_true, h⟩
  exact ⟨List.forall_mem_singleton.2 ho⟩

/-- In a message value two bodies are left open, on a writer that is three levels in; a number on
its own leaves one open behind a section. -/
theorem level_of_error_costly :
    let entry : OptionEntry := ⟨"base", .double, .int (Number.tenPow 400)⟩
    let n := costly (.entries [entry])
    let m := costly (.literal .double (.int (Number.tenPow 400)))
    let w : Writer := { style := .usual, level := 3 }
    let s := scope "service Store" ([[m]].map (·.flatMap script))
    n.WellFormed ∧ (n.emit w).error = some (.literal .tooLarge) ∧
      (n.emit w).writer.level = 3 + 2 * 2 ∧
      m.WellFormed ∧ (Script.run s w).error = some (.literal .tooLarge) ∧
      (Script.run s w).writer.level = 3 + 1 * 2 := by
  intro entry n m w s
  have hn : n.WellFormed := costly_wellFormed (List.forall_mem_singleton.2 rfl)
  have hm : m.WellFormed := costly_wellFormed (rfl : FieldType.mismatch? _ _ = none)
  have hne : (n.emit w).error = some (.literal .tooLarge) :=
    (n.error_emit w).trans (by decide +kernel)
  have hse : (Script.run s w).error = some (.literal .tooLarge) := by decide +kernel
  have hns : leftOpen n.risks (.literal .tooLarge) = 2 := by decide +kernel
  have hms : leftOpen ([[m]].flatten.flatMap risks) (.literal .tooLarge) = 1 := by decide +kernel
  have hs : ∀ ns ∈ [[m]], ∀ k ∈ ns, k.WellFormed := by simpa using hm
  have hln := ((level_of_error w _).1 n hn hne).1
  have hlm := ((level_of_error w _).2 "service Store" [[m]] hs hse).1
  rw [hns] at hln
  rw [hms] at hlm
  exact ⟨hn, hne, hln, hm, hse, hlm⟩

/-- Not every error leaves the level as it was: this one raises it by a step, on a new writer. -/
theorem level_left_raised :
    let m := costly (.literal .double (.int (Number.tenPow 400)))
    let s := scope "service Store" ([[m]].map (·.flatMap script))
    m.WellFormed ∧ (Script.run s (.ofStyle .usual)).error = some (.literal .tooLarge) ∧
      (Writer.ofStyle .usual).level = 0 ∧ (Script.run s (.ofStyle .usual)).writer.level = 2 := by
  intro m s
  have hm : m.WellFormed := costly_wellFormed (rfl : FieldType.mismatch? _ _ = none)
  exact ⟨hm, by decide +kernel, rfl, by decide +kernel⟩

end Node

end Leaves

end ProtoSchema
