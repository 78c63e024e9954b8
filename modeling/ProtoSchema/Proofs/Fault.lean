import Mathlib.Tactic.Lemma
import ProtoSchema.Node.Render

/-!
Where a script fails.

What a script fails with can be read off the script, as long as its changes of indentation come in
pairs: no step of such a script fails but one that is there to fail. The scripts of all nodes are
of this form.
-/

namespace ProtoSchema

/-! ### One indent step -/

namespace Layout.Writer

/-- The writer one indent step further in. -/
def stepIn (w : Writer) : Writer := { w with level := w.level + w.style.indentSize }

/-- The writer one indent step further out. -/
def stepOut (w : Writer) : Writer := { w with level := w.level - w.style.indentSize }

@[simp] lemma stepIn_level (w : Writer) : w.stepIn.level = w.level + w.style.indentSize := rfl

@[simp] lemma stepOut_level (w : Writer) : w.stepOut.level = w.level - w.style.indentSize := rfl

lemma indent_none (w : Writer) : w.indent none = .ok w.stepIn := by
  have h := w.style.indentSize_pos
  simp [indent, levelsMeant, stepIn, show w.style.indentSize ≠ 0 by omega]

lemma unindent_none {w : Writer} (h : w.style.indentSize ≤ w.level) :
    w.unindent none = .ok w.stepOut := by
  have hm : w.levelsMeant none = w.style.indentSize := rfl
  have ht : ((w.level : Int) - w.style.indentSize).toNat = w.level - w.style.indentSize := by omega
  rw [unindent, hm, if_neg (by omega), ht, stepOut]

end Layout.Writer

namespace Print

open Layout

/-! ### Faults of scripts -/

mutual

/-- The error of a step that is there to fail. -/
def Step.fault? : Step → Option PrintError
  | .fail error => some error
  | .body steps => Script.fault? steps
  | .emit _ | .comment _ | .indent _ | .unindent _ => none

/-- The error of the first step that is there to fail. -/
def Script.fault? : Script → Option PrintError
  | [] => none
  | step :: steps => (step.fault?).or (Script.fault? steps)

end

/-- Scripts that lower the level as often as they raise it, and never below where they start. No
step of them is there to fail like a change of indentation. -/
inductive Balanced : Script → Prop where
  | nil : Balanced []
  | emit (text : String) {s : Script} : Balanced s → Balanced (.emit text :: s)
  | comment (lines : List String) {s : Script} : Balanced s → Balanced (.comment lines :: s)
  | fail {error : PrintError} (h : ∀ e, error ≠ .layout e) {s : Script} : Balanced s →
      Balanced (.fail error :: s)
  | body {b s : Script} : Balanced b → Balanced s → Balanced (.body b :: s)
  | indented {b s : Script} : Balanced b → Balanced s →
      Balanced (.indent none :: (b ++ .unindent none :: s))

namespace Script

@[simp] lemma fault?_nil : fault? [] = none := rfl

@[simp] lemma fault?_cons (step : Step) (s : Script) :
    fault? (step :: s) = (step.fault?).or (fault? s) := rfl

@[simp] lemma fault?_append (a b : Script) : fault? (a ++ b) = (fault? a).or (fault? b) := by
  induction a with
  | nil => simp
  | cons step a ih => simp [ih, Option.or_assoc]

lemma fault?_flatten_eq_none {ss : List Script} :
    fault? ss.flatten = none ↔ ∀ s ∈ ss, fault? s = none := by
  induction ss with
  | nil => simp
  | cons s ss ih => simp [ih]

lemma fault?_flatMap_eq_none {α : Type} {script : α → Script} {as : List α} :
    fault? (as.flatMap script) = none ↔ ∀ a ∈ as, fault? (script a) = none := by
  rw [List.flatMap_def, fault?_flatten_eq_none]
  simp

end Script

/-! ### Composed scripts -/

lemma fault?_literal {literal : Except FormatError String} (h : ∃ text, literal = .ok text)
    (before after : String) : (Step.literal before literal after).fault? = none := by
  obtain ⟨text, rfl⟩ := h
  rfl

lemma PrintError.ofRejection_inj {r q : Usage.Rejection} (h : ofRejection r = ofRejection q) :
    r = q := by
  cases r <;> cases q <;> cases h <;> rfl

lemma fault?_guard (r : Option Usage.Rejection) : Script.fault? (guard r) = r.map .ofRejection := by
  cases r <;> rfl

namespace Step

variable {numbers : List Int} {text : String}

lemma numbered_eq (numbers : List Int) (text : String) :
    numbered numbers text = .emit text ∨ numbered numbers text = .fail (.number .tooLong) := by
  unfold numbered
  split
  · exact .inr rfl
  · exact .inl rfl

lemma numbered_of_short (h : ∀ n ∈ numbers, ¬ Number.tooLong n) :
    numbered numbers text = .emit text := by
  rw [numbered, if_neg]
  simpa using h

lemma numbered_of_fault? (h : (numbered numbers text).fault? = none) :
    numbered numbers text = .emit text := by
  rcases numbered_eq numbers text with he | he
  · exact he
  · simp [he, fault?] at h

end Step

lemma fault?_scope (header : String) (sections : List Script) :
    Script.fault? (scope header sections) = Script.fault? sections.flatten := by
  have hs : Script.fault? (sections.flatMap fun s => [.emit "\n", .body s]) =
      Script.fault? sections.flatten := by
    induction sections with
    | nil => rfl
    | cons s ss ih =>
      simp only [List.flatMap_cons, List.flatten_cons, Script.fault?_append, ih]
      simp [Step.fault?]
  have hn : Script.fault? (if sections.isEmpty then [] else [.emit "\n"]) = none := by
    split <;> rfl
  rw [scope, Script.fault?_cons, Script.fault?_append, Script.fault?_append, hn, hs]
  simp [Step.fault?]

lemma fault?_sectionFor {α : Type} {elements : List α} {script : Script}
    (h : elements = [] → script.fault? = none) :
    Script.fault? (sectionFor elements script).flatten = script.fault? := by
  cases elements with
  | nil => exact (h rfl).symm
  | cons a as => simp [sectionFor]

lemma fault?_intercalate {between : Script} {ss : List Script} (hb : between.fault? = none)
    (h : ∀ s ∈ ss, Script.fault? s = none) : Script.fault? (between.intercalate ss) = none := by
  induction ss with
  | nil => rfl
  | cons s ss ih =>
    have hs := h s List.mem_cons_self
    by_cases hn : ss = []
    · rw [hn, List.intercalate_singleton]
      exact hs
    · rw [List.intercalate_cons_of_ne_nil hn, Script.fault?_append, Script.fault?_append, hs, hb]
      exact ih fun t ht => h t (List.mem_cons_of_mem s ht)

/-! ### The faults of balanced scripts -/

/-- What comes of a script run by a writer: its fault and nothing else ends it, and without one the
level is what it was. -/
structure Runs (fault : Option PrintError) (w : Writer) (o : Outcome PrintError) : Prop where
  error : o.error = fault
  size : o.writer.style.indentSize = w.style.indentSize
  raised : w.level ≤ o.writer.level
  level : fault = none → o.writer.level = w.level

namespace Runs

lemma ofWritten {w : Writer} {written : List Char × Writer} (h : written.2.pace = w.pace) :
    Runs none w (.ofWritten written) := by
  obtain ⟨hl, hs⟩ := Prod.mk.inj h
  exact ⟨rfl, hs, Nat.le_of_eq hl.symm, fun _ => hl⟩

lemma andThen {f g : Option PrintError} {w : Writer} {o : Outcome PrintError}
    {next : Writer → Outcome PrintError} (h : Runs f w o) (hn : ∀ v, Runs g v (next v)) :
    Runs (f.or g) w (o.andThen next) := by
  have he := h.error
  have hv := hn o.writer
  cases f with
  | some e =>
    rw [Outcome.andThen_of_error he, Option.some_or]
    exact h
  | none =>
    rw [Outcome.andThen_of_no_error he, Option.none_or]
    have hl := h.level rfl
    exact ⟨hv.error, hv.size.trans h.size, hl ▸ hv.raised, fun hg => (hv.level hg).trans hl⟩

end Runs

lemma runs_body {f : Option PrintError} {b : Script} (hb : ∀ v, Runs f v (Script.run b v))
    (w : Writer) : Runs f w (Step.run (.body b) w) := by
  have h := hb w.stepIn
  have hs : _ = w.style.indentSize := h.size
  have hr : w.level + w.style.indentSize ≤ _ := h.raised
  rw [Step.run, Writer.indent_none]
  simp only [Outcome.leaveBody]
  rw [Writer.unindent_none (by omega)]
  refine ⟨h.error, hs, ?_, fun hf => ?_⟩
  · simp only [Writer.stepOut_level]
    omega
  · have hl : _ = w.level + w.style.indentSize := h.level hf
    simp only [Writer.stepOut_level]
    omega

lemma run_indented (b s : Script) (w : Writer) :
    Script.run (.indent none :: (b ++ .unindent none :: s)) w =
      (Script.run b w.stepIn).andThen (Script.run (.unindent none :: s)) := by
  rw [Script.run, Step.run, Writer.indent_none, Outcome.ofChange, Outcome.nothing_andThen,
    Script.run_append]

lemma run_unindent {w : Writer} (h : w.style.indentSize ≤ w.level) (s : Script) :
    Script.run (.unindent none :: s) w = Script.run s w.stepOut := by
  rw [Script.run, Step.run, Writer.unindent_none h, Outcome.ofChange, Outcome.nothing_andThen]

lemma runs_indented {f g : Option PrintError} {b s : Script}
    (hb : ∀ v, Runs f v (Script.run b v)) (hs : ∀ v, Runs g v (Script.run s v)) (w : Writer) :
    Runs (f.or g) w (Script.run (.indent none :: (b ++ .unindent none :: s)) w) := by
  have h := hb w.stepIn
  have he := h.error
  have hz : _ = w.style.indentSize := h.size
  have hr : w.level + w.style.indentSize ≤ _ := h.raised
  rw [run_indented]
  cases f with
  | some e =>
    rw [Outcome.andThen_of_error he, Option.some_or]
    exact ⟨he, hz, by omega, by simp⟩
  | none =>
    have hl : _ = w.level + w.style.indentSize := h.level rfl
    rw [Outcome.andThen_of_no_error he, Option.none_or, run_unindent (by omega)]
    have hv := hs (Script.run b w.stepIn).writer.stepOut
    have hlev : (Script.run b w.stepIn).writer.stepOut.level = w.level := by
      rw [Writer.stepOut_level]
      omega
    exact ⟨hv.error, hv.size.trans hz, hlev ▸ hv.raised, fun hg => (hv.level hg).trans hlev⟩

/-- A balanced script fails with its first fault, in whatever state the writer is. -/
theorem Balanced.runs {s : Script} (h : Balanced s) (w : Writer) :
    Runs s.fault? w (Script.run s w) := by
  induction h generalizing w with
  | nil => exact ⟨rfl, rfl, Nat.le_refl _, fun _ => rfl⟩
  | emit text _ ih =>
    rw [Script.run, Step.run]
    exact (Runs.ofWritten (w.pace_emit _)).andThen ih
  | comment lines _ ih =>
    rw [Script.run, Step.run]
    exact (Runs.ofWritten (w.pace_emitComment _)).andThen ih
  | @fail error _ _ _ ih =>
    rw [Script.run, Step.run]
    have h : Runs (some error) w (.failed w error) := ⟨rfl, rfl, Nat.le_refl _, by simp⟩
    exact h.andThen ih
  | body _ _ ihb ihs =>
    rw [Script.run]
    exact (runs_body ihb w).andThen ihs
  | indented _ _ ihb ihs =>
    simpa [Step.fault?] using runs_indented ihb ihs w

/-- No change of indentation is refused when a balanced script runs: its error would be
the fault. -/
lemma Balanced.fault?_ne_layout {s : Script} (h : Balanced s) (e : LayoutError) :
    s.fault? ≠ some (.layout e) := by
  induction h with
  | nil => simp
  | emit text _ ih => simpa [Step.fault?] using ih
  | comment lines _ ih => simpa [Step.fault?] using ih
  | fail he _ _ => simpa [Step.fault?] using he e
  | body _ _ ihb ihs => simp [Step.fault?, Option.or_eq_some_iff, ihb, ihs]
  | indented _ _ ihb ihs => simp [Step.fault?, Option.or_eq_some_iff, ihb, ihs]

end Print

end ProtoSchema
