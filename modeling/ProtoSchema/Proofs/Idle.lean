import ProtoSchema.Proofs.Fault
import ProtoSchema.Proofs.Line
import ProtoSchema.Session.Writing

/-!
Writers between two uses.

Text, comments and changes of the level are all that is ever done with a writer, so what these keep
is true of every writer that a session can reach. The mode for comments is on within a comment only,
and what starts a line also clears the column and the spaces held back.
-/

namespace ProtoSchema

open Layout

namespace Layout

namespace Writer

/-- The writer is outside of comments, and nothing stands in front of a line that starts. -/
structure Idle (w : Writer) : Prop where
  comment : w.comment = false
  start : w.lineStart = true → w.cursor = {}

namespace Idle

variable {w : Writer}

lemma fresh (style : Style) (level : Nat) : (fresh style level false).Idle :=
  ⟨rfl, fun _ => rfl⟩

lemma eq_fresh (h : w.Idle) (hs : w.lineStart = true) : w = Writer.fresh w.style w.level false := by
  obtain ⟨style, cursor, level, lineStart, comment⟩ := w
  obtain rfl : comment = false := h.comment
  obtain rfl : cursor = {} := h.start hs
  obtain rfl : lineStart = true := hs
  rfl

lemma relevel (h : w.Idle) (level : Nat) : { w with level }.Idle := ⟨h.comment, h.start⟩

lemma run (h : w.Idle) (text : List Char) : (w.run text).2.Idle := by
  have hc : (w.run text).2.comment = w.comment := congrArg (·.2.2) (w.frame_run text)
  refine ⟨hc.trans h.comment, ?_⟩
  unfold Writer.run
  split
  · exact h.start
  · exact fun hs => absurd hs Bool.false_ne_true

lemma newline (h : w.Idle) : w.newline.2.Idle := by
  rw [newline_eq_fresh, h.comment]
  exact fresh _ _

lemma nextLine (h : w.Idle) (line : List Char) : (w.nextLine line).2.Idle := h.newline.run line

lemma writeAll {α : Type} {write : Writer → α → List Char × Writer}
    (hw : ∀ {w : Writer}, w.Idle → ∀ a, (write w a).2.Idle) (h : w.Idle) (as : List α) :
    (writeAll write w as).2.Idle := by
  induction as generalizing w with
  | nil => exact h
  | cons a as ih =>
    rw [writeAll_cons]
    exact ih (hw h a)

lemma emit (h : w.Idle) (text : List Char) : (w.emit text).2.Idle := by
  unfold Writer.emit
  split
  · exact h
  · exact writeAll (fun h l => h.nextLine l) (h.run _) _

end Idle

/-- A comment line ends at the start of the line below, wherever it is written. -/
lemma commentLine_eq_fresh (w : Writer) (entry : String) :
    (w.commentLine entry).2 = fresh w.style w.level false := by
  obtain ⟨hs, hr⟩ :=
    Prod.mk.inj (frame_emit { w with lineStart := true, comment := true } entry.toList)
  obtain ⟨hl, -⟩ := Prod.mk.inj hr
  have he := emit_ended_eq_fresh
    (emit { w with lineStart := true, comment := true } entry.toList).2 []
  rw [List.nil_append, hs, hl] at he
  rw [commentLine, he]
  rfl

lemma emitComment_keeps {P : Writer → Prop} (h : ∀ w, P w → P (fresh w.style w.level false))
    {w : Writer} (hw : P w) (entries : List String) : P (w.emitComment entries).2 := by
  induction entries generalizing w with
  | nil => exact hw
  | cons entry entries ih =>
    rw [emitComment, writeAll_cons, commentLine_eq_fresh]
    exact ih (h w hw)

/-! ### What is kept -/

/-- A property of writers that text, comments and changes of the level keep. -/
structure Kept (P : Writer → Prop) : Prop where
  emit : ∀ {w : Writer}, P w → ∀ text, P (w.emit text).2
  comment : ∀ {w : Writer}, P w → ∀ lines, P (w.emitComment lines).2
  relevel : ∀ {w : Writer}, P w → ∀ level, P { w with level }

lemma kept_idle : Kept Idle :=
  ⟨Idle.emit, emitComment_keeps fun _ _ => .fresh _ _, Idle.relevel⟩

/-- A writer outside of comments stays there, and keeps its style. -/
lemma kept_plain (style : Style) : Kept fun w => w.comment = false ∧ w.style = style := by
  have hc : ∀ w : Writer, w.comment = false ∧ w.style = style →
      (fresh w.style w.level false).comment = false ∧ (fresh w.style w.level false).style = style :=
    fun w hw => ⟨rfl, hw.2⟩
  refine ⟨fun {w} hw text => ?_, fun hw => emitComment_keeps hc hw, fun hw _ => hw⟩
  obtain ⟨hs, hr⟩ := Prod.mk.inj (w.frame_emit text)
  exact ⟨(congrArg Prod.snd hr).trans hw.1, hs.trans hw.2⟩

namespace Kept

variable {P : Writer → Prop} {w : Writer} {ε : Type}

lemma ofChange_indent (h : Kept P) (lift : LayoutError → ε) (hw : P w) (levels : Option Int) :
    P (Outcome.ofChange lift w (w.indent levels)).writer := by
  unfold Writer.indent
  split
  · exact hw
  · exact h.relevel hw _

lemma ofChange_unindent (h : Kept P) (lift : LayoutError → ε) (hw : P w) (levels : Option Int) :
    P (Outcome.ofChange lift w (w.unindent levels)).writer := by
  unfold Writer.unindent
  split
  · exact hw
  · exact h.relevel hw _

lemma leaveBody (h : Kept P) (lift : LayoutError → ε) {o : Outcome ε} (ho : P o.writer) :
    P (o.leaveBody lift).writer := by
  have hw := h.ofChange_unindent lift ho none
  unfold Outcome.leaveBody
  cases hu : o.writer.unindent none with
  | error e => exact ho
  | ok w =>
    rw [hu] at hw
    exact hw

end Kept

lemma andThen_keeps {P : Writer → Prop} {ε : Type} {o : Outcome ε} (ho : P o.writer)
    {next : Writer → Outcome ε} (hn : ∀ {w : Writer}, P w → P (next w).writer) :
    P (o.andThen next).writer := by
  cases he : o.error with
  | some e => rwa [Outcome.andThen_of_error he]
  | none =>
    rw [Outcome.andThen_of_no_error he]
    exact hn ho

end Writer

end Layout

/-! ### Scripts -/

namespace Print

variable {P : Writer → Prop}

mutual

lemma Step.keeps (h : Writer.Kept P) : ∀ (s : Step) {w : Writer}, P w → P (s.run w).writer
  | .emit text, _, hw => by
    rw [Step.run]
    exact h.emit hw text.toList
  | .comment lines, _, hw => by
    rw [Step.run]
    exact h.comment hw lines
  | .indent levels, _, hw => by
    rw [Step.run]
    exact h.ofChange_indent _ hw levels
  | .unindent levels, _, hw => by
    rw [Step.run]
    exact h.ofChange_unindent _ hw levels
  | .body steps, _, hw => by
    rw [Step.run, Writer.indent_none]
    exact h.leaveBody _ (Script.keeps h steps (h.relevel hw _))
  | .fail _, _, hw => by
    rw [Step.run]
    exact hw

lemma Script.keeps (h : Writer.Kept P) :
    ∀ (s : Script) {w : Writer}, P w → P (Script.run s w).writer
  | [], _, hw => by
    rw [Script.run]
    exact hw
  | step :: steps, _, hw => by
    rw [Script.run]
    exact Writer.andThen_keeps (Step.keeps h step hw) (Script.keeps h steps)

end

end Print

/-! ### Sessions -/

namespace Session

variable {P : Writer → Prop}

lemma Progress.andThen_keeps {p : Progress} (hp : P p.outcome.writer)
    {next : State → Writer → Progress}
    (hn : ∀ (s : State) {w : Writer}, P w → P (next s w).outcome.writer) :
    P (p.andThen next).outcome.writer := by
  unfold andThen
  split
  · exact hp
  · exact hn _ hp

lemma Progress.body_keeps (h : Writer.Kept P) {run : State → Writer → Progress} {s : State}
    {w : Writer} (hr : ∀ {w : Writer}, P w → P (run s w).outcome.writer) (hw : P w) :
    P (body run s w).outcome.writer := by
  rw [body, Writer.indent_none]
  exact h.leaveBody _ (hr (h.relevel hw _))

lemma writeNode_keeps (h : Writer.Kept P) (lift : Print.PrintError → Failure) (e : Expr) (s : State)
    {w : Writer} (hw : P w) :
    P (writeNode lift e s w).outcome.writer := by
  unfold writeNode
  split
  · next n _ => exact Print.Script.keeps h n.script hw
  · exact hw

mutual

lemma WriterStep.keeps (h : Writer.Kept P) : ∀ (step : WriterStep) (s : State) {w : Writer}, P w →
    P (step.run s w).outcome.writer
  | .emit text, _, _, hw => by
    rw [WriterStep.run]
    exact h.emit hw text.toList
  | .comment lines, _, _, hw => by
    rw [WriterStep.run]
    exact h.comment hw lines
  | .indent levels, _, _, hw => by
    rw [WriterStep.run]
    exact h.ofChange_indent _ hw levels
  | .unindent levels, _, _, hw => by
    rw [WriterStep.run]
    exact h.ofChange_unindent _ hw levels
  | .scope _ sections, _, _, hw => by
    rw [WriterStep.run]
    exact Progress.andThen_keeps
      (Progress.andThen_keeps (h.emit hw _) (WriterStep.keeps_sections h sections))
      fun _ _ hv => h.emit hv _
  | .node e, s, _, hw => by
    rw [WriterStep.run]
    exact writeNode_keeps h _ e s hw
  | .rendered e, s, _, hw => by
    rw [WriterStep.run]
    exact writeNode_keeps h _ e s hw
  | .fail _, _, _, hw => by
    rw [WriterStep.run]
    exact hw

lemma WriterStep.keeps_all (h : Writer.Kept P) : ∀ (steps : List WriterStep) (s : State)
    {w : Writer}, P w → P (WriterStep.runAll steps s w).outcome.writer
  | [], _, _, hw => by
    rw [WriterStep.runAll]
    exact hw
  | step :: steps, s, _, hw => by
    rw [WriterStep.runAll]
    exact Progress.andThen_keeps (WriterStep.keeps h step s hw) (WriterStep.keeps_all h steps)

lemma WriterStep.keeps_sections (h : Writer.Kept P) :
    ∀ (sections : List (List WriterStep)) (s : State)
    {w : Writer}, P w → P (WriterStep.runSections sections s w).outcome.writer
  | [], _, _, hw => by
    rw [WriterStep.runSections]
    exact hw
  | steps :: sections, _, _, hw => by
    rw [WriterStep.runSections]
    exact Progress.andThen_keeps
      (Progress.andThen_keeps (h.emit hw _) fun s _ hv =>
        Progress.body_keeps h (WriterStep.keeps_all h steps s) hv)
      (WriterStep.keeps_sections h sections)

end

lemma outcomes_keep (h : Writer.Kept P) (s : State) {w : Writer} (hw : P w)
    (steps : List WriterStep) :
    ∀ o ∈ outcomes s w steps, P o.writer := by
  induction steps generalizing s w with
  | nil => simp [outcomes]
  | cons step steps ih =>
    have hv := step.keeps h s hw
    exact List.forall_mem_cons.2 ⟨hv, ih _ hv⟩

/-- **Idle writers**: whatever is done with a writer, failures included, it is idle behind
every step. -/
theorem outcomes_idle (s : State) (style : Style) (steps : List WriterStep) :
    ∀ o ∈ outcomes s (.ofStyle style) steps, o.writer.Idle :=
  outcomes_keep Writer.kept_idle s (.fresh style 0) steps

end Session

end ProtoSchema
