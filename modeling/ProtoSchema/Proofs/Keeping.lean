import ProtoSchema.Proofs.Balance
import ProtoSchema.Proofs.Line

/-!
Scripts that keep texts together.

A word is never broken, so a text that stands in one word of what a script emits stands in the text
of a run. Texts kept by one script after another occur one behind the other, and no two of them
share a place.
-/

namespace ProtoSchema

open Layout Print Usage

/-! ### Texts one behind the other -/

/-- The texts occur in a text, each behind the one before it. -/
def Occur : List (List Char) → List Char → Prop
  | [], _ => True
  | q :: qs, text => ∃ before after, text = before ++ q ++ after ∧ Occur qs after

namespace Occur

variable {qs rs : List (List Char)} {a b : List Char}

lemma behind (h : Occur qs b) (a : List Char) : Occur qs (a ++ b) := by
  cases qs with
  | nil => trivial
  | cons q qs =>
    obtain ⟨before, after, rfl, h⟩ := h
    exact ⟨a ++ before, after, by simp, h⟩

lemma append (ha : Occur qs a) (hb : Occur rs b) : Occur (qs ++ rs) (a ++ b) := by
  induction qs generalizing a with
  | nil => exact hb.behind a
  | cons q qs ih =>
    obtain ⟨before, after, rfl, h⟩ := ha
    exact ⟨before, after ++ b, by simp, ih h⟩

lemma single {q : List Char} (h : q <:+: a) : Occur [q] a := by
  obtain ⟨before, after, rfl⟩ := h
  exact ⟨before, after, rfl, trivial⟩

lemma infix_of_mem {q : List Char} (h : Occur qs a) (hq : q ∈ qs) : q <:+: a := by
  induction qs generalizing a with
  | nil => cases hq
  | cons p qs ih =>
    obtain ⟨before, after, rfl, h⟩ := h
    rcases List.mem_cons.1 hq with rfl | hq
    · exact ⟨before, after, rfl⟩
    · exact (ih h hq).trans (List.suffix_append _ after).isInfix

end Occur

/-- What has no newline in it stands on one line. -/
lemma exists_line_of_infix {q text : List Char} (hq : '\n' ∉ q) (h : q <:+: text) :
    ∃ l ∈ lines text, q <:+: l := by
  obtain ⟨before, after, rfl⟩ := h
  obtain ⟨ls, l, hl, hn⟩ := exists_last_line before
  obtain ⟨k, ks, hk⟩ := List.exists_cons_of_ne_nil (lines_ne_nil after)
  have hlq : '\n' ∉ l ++ q := by simp [hn, hq]
  refine ⟨l ++ q ++ k, ?_, ⟨l, k, rfl⟩⟩
  rw [List.append_assoc before, lines_append hl, ← List.append_assoc,
    lines_append_of_no_newline hlq hk]
  simp

/-! ### Words in the text of a writer -/

namespace Layout

lemma Cursor.infix_placeAll (width : Nat) (continuation : Margin) (c : Cursor) {ss : List Segment}
    {g : Segment} (h : g ∈ ss) : g.word <:+: (c.placeAll width continuation ss).1 := by
  induction ss generalizing c with
  | nil => cases h
  | cons s ss ih =>
    rw [placeAll, writeAll_cons]
    rcases List.mem_cons.1 h with rfl | h
    · refine List.IsInfix.trans ?_ (List.prefix_append _ _).isInfix
      unfold place
      split
      · next hw => simp [List.isEmpty_iff.1 hw]
      · split <;> exact (List.suffix_append _ g.word).isInfix
    · exact (ih _ h).trans (List.suffix_append _ _).isInfix

namespace Writer

variable {w : Writer}

lemma infix_run (hw : w.comment = false) {text q : List Char}
    (h : ∃ g ∈ segments true text, q <:+: g.word) : q <:+: (w.run text).1 := by
  obtain ⟨g, hg, hq⟩ := h
  unfold run
  split
  · next ht =>
    obtain rfl : text = [] := List.isEmpty_iff.1 ht
    obtain rfl : g = ⟨[], []⟩ := List.mem_singleton.1 hg
    exact hq
  · simp only [hw, Cursor.wrap, Bool.not_false]
    exact (hq.trans (Cursor.infix_placeAll _ _ _ hg)).trans (List.suffix_append _ _).isInfix

lemma infix_emit (hw : w.comment = false) {before q after : List Char} (hn : '\n' ∉ before ++ q)
    {kept : List Char} (h : ∀ rest, ∃ g ∈ segments true (before ++ q ++ rest), kept <:+: g.word) :
    kept <:+: (w.emit (before ++ q ++ after)).1 := by
  obtain ⟨l, ls, hl⟩ := List.exists_cons_of_ne_nil (lines_ne_nil after)
  rw [emit, lines_append_of_no_newline hn hl]
  exact (infix_run hw (h l)).trans (List.prefix_append _ _).isInfix

/-! ### What is written outside of comments -/

lemma comment_unindent {v : Writer} {levels : Option Int} (h : w.unindent levels = .ok v) :
    v.comment = w.comment := by
  unfold unindent at h
  split at h <;> cases h
  rfl

lemma comment_emit (w : Writer) (text : List Char) : (w.emit text).2.comment = w.comment :=
  congrArg (·.2.2) (w.frame_emit text)

lemma comment_emitComment (hw : w.comment = false) (ls : List String) :
    (w.emitComment ls).2.comment = false := by
  induction ls generalizing w with
  | nil => exact hw
  | cons l ls ih =>
    rw [emitComment, writeAll_cons]
    exact ih rfl

end Writer

end Layout

/-! ### Scripts that keep texts together -/

namespace Print

/-- A run outside of comments that comes to its end writes the texts, one behind the other. -/
structure Keeps (s : Script) (qs : List (List Char)) : Prop where
  run : ∀ w : Writer, w.comment = false → (Script.run s w).error = none →
    (Script.run s w).writer.comment = false ∧ Occur qs (Script.run s w).text

namespace Keeps

variable {s t : Script} {qs rs : List (List Char)}

lemma nil : Keeps [] [] := ⟨fun _ hw _ => ⟨hw, trivial⟩⟩

lemma append (hs : Keeps s qs) (ht : Keeps t rs) : Keeps (s ++ t) (qs ++ rs) := by
  refine ⟨fun w hw he => ?_⟩
  rw [Script.run_append] at he ⊢
  cases hf : (Script.run s w).error with
  | some e =>
    rw [Outcome.andThen_of_error hf, hf] at he
    cases he
  | none =>
    rw [Outcome.andThen_of_no_error hf] at he ⊢
    obtain ⟨hv, hq⟩ := hs.run w hw hf
    obtain ⟨hc, hr⟩ := ht.run _ hv he
    exact ⟨hc, hq.append hr⟩

lemma of_step {step : Step} (h : ∀ w : Writer, w.comment = false → (step.run w).error = none →
    (step.run w).writer.comment = false ∧ Occur qs (step.run w).text) : Keeps [step] qs := by
  refine ⟨fun w hw => ?_⟩
  have hr : Script.run [step] w = step.run w := by
    rw [Script.run, Outcome.andThen]
    split
    · rfl
    · next hf => simp [Script.run, ← hf]
  rw [hr]
  exact h w hw

lemma emit (text : String) : Keeps [.emit text] [] :=
  of_step fun w hw _ => ⟨(w.comment_emit _).trans hw, trivial⟩

lemma comment (c : List String) : Keeps [.comment c] [] :=
  of_step fun _ hw _ => ⟨Writer.comment_emitComment hw c, trivial⟩

lemma fail (error : PrintError) : Keeps (.fail error :: s) qs := by
  refine ⟨fun w _ he => ?_⟩
  rw [Script.run, Step.run, Outcome.failed, Outcome.andThen_of_error rfl] at he
  cases he

/-- A text that stands in one word, whatever comes behind it on the line, is kept. -/
lemma word {text : String} {before q after : List Char} (ht : text.toList = before ++ q ++ after)
    (hn : '\n' ∉ before ++ q) {kept : List Char}
    (h : ∀ rest, ∃ g ∈ segments true (before ++ q ++ rest), kept <:+: g.word) :
    Keeps [.emit text] [kept] := by
  refine of_step fun w hw _ => ⟨(w.comment_emit _).trans hw, .single ?_⟩
  rw [Step.run, ht]
  exact Writer.infix_emit hw hn h

lemma indent : Keeps [.indent none] [] := by
  refine of_step fun w hw _ => ?_
  rw [Step.run, Writer.indent_none]
  exact ⟨hw, trivial⟩

lemma unindent : Keeps [.unindent none] [] := by
  refine of_step fun w hw he => ?_
  rw [Step.run] at he ⊢
  cases hu : w.unindent none with
  | error e => simp [hu, Outcome.ofChange, Outcome.failed] at he
  | ok v => exact ⟨(Writer.comment_unindent hu).trans hw, trivial⟩

lemma indented (h : Keeps s qs) : Keeps (.indent none :: (s ++ [.unindent none])) qs := by
  simpa using indent.append (h.append unindent)

lemma body (h : Keeps s qs) : Keeps [.body s] qs := by
  refine of_step fun w hw he => ?_
  simp only [Step.run, Writer.indent_none, Outcome.leaveBody] at he ⊢
  cases hu : (Script.run s w.stepIn).writer.unindent none with
  | error e => simp [hu] at he
  | ok v =>
    simp only [hu] at he ⊢
    obtain ⟨hc, hq⟩ := h.run w.stepIn hw he
    exact ⟨(Writer.comment_unindent hu).trans hc, hq⟩

lemma flatMap {α : Type} {script : α → Script} {kept : α → List (List Char)} {as : List α}
    (h : ∀ a ∈ as, Keeps (script a) (kept a)) : Keeps (as.flatMap script) (as.flatMap kept) := by
  induction as with
  | nil => exact nil
  | cons a as ih =>
    exact (h a List.mem_cons_self).append (ih fun b hb => h b (List.mem_cons_of_mem a hb))

lemma registered {σ α : Type} {register : σ → α → σ × Option Rejection} {script : α → Script}
    {kept : α → List (List Char)} {as : List α} (h : ∀ a ∈ as, Keeps (script a) (kept a)) (s : σ) :
    Keeps (registered register script s as).1 (as.flatMap kept) := by
  induction as generalizing s with
  | nil => exact nil
  | cons a as ih =>
    have hg : Keeps (guard (register s a).2) [] := by
      cases (register s a).2 with
      | none => exact nil
      | some r => exact fail _
    rw [registered_cons]
    exact (hg.append (h a List.mem_cons_self)).append
      (ih (fun b hb => h b (List.mem_cons_of_mem a hb)) _)

/-- Nothing is kept of what stands between. -/
lemma intercalate {α : Type} {script : α → Script} {kept : α → List (List Char)} {as : List α}
    (between : String) (h : ∀ a ∈ as, Keeps (script a) (kept a)) :
    Keeps (List.intercalate [.emit between] (as.map script)) (as.flatMap kept) := by
  induction as with
  | nil => exact nil
  | cons a as ih =>
    have ha := h a List.mem_cons_self
    have has := ih fun b hb => h b (List.mem_cons_of_mem a hb)
    by_cases hn : as = []
    · subst hn
      simpa using ha
    · have hm : as.map script ≠ [] := by simpa using hn
      rw [List.map_cons, List.intercalate_cons_of_ne_nil hm, List.flatMap_cons]
      simpa using (ha.append (emit between)).append has

end Keeps

/-- Each of the sections keeps its texts. -/
inductive KeepsEach : List Script → List (List Char) → Prop
  | nil : KeepsEach [] []
  | cons {s : Script} {ss : List Script} {qs rs : List (List Char)} (hs : Keeps s qs)
      (hss : KeepsEach ss rs) : KeepsEach (s :: ss) (qs ++ rs)

namespace KeepsEach

variable {ss ts : List Script} {qs rs : List (List Char)}

lemma append (hs : KeepsEach ss qs) (ht : KeepsEach ts rs) : KeepsEach (ss ++ ts) (qs ++ rs) := by
  induction hs with
  | nil => exact ht
  | cons h _ ih =>
    rw [List.cons_append, List.append_assoc]
    exact .cons h ih

lemma sectionFor {α : Type} {as : List α} {script : Script} {kept : α → List (List Char)}
    (h : Keeps script (as.flatMap kept)) : KeepsEach (sectionFor as script) (as.flatMap kept) := by
  unfold Print.sectionFor
  split
  · next he =>
    obtain rfl : as = [] := List.isEmpty_iff.1 he
    exact .nil
  · simpa using KeepsEach.cons h .nil

lemma bodies (h : KeepsEach ss qs) : Keeps (ss.flatMap fun s => [.emit "\n", .body s]) qs := by
  induction h with
  | nil => exact .nil
  | cons h _ ih => exact ((Keeps.emit "\n").append h.body).append ih

lemma scope (h : KeepsEach ss qs) (header : String) : Keeps (scope header ss) qs := by
  have hn : Keeps (if ss.isEmpty then [] else [.emit "\n"]) [] := by
    split
    · exact .nil
    · exact .emit "\n"
  have hs := (Keeps.emit (header ++ " \x7b")).append ((hn.append h.bodies).append (.emit "\x7d\n"))
  simpa [Print.scope] using hs

end KeepsEach

end Print

end ProtoSchema
