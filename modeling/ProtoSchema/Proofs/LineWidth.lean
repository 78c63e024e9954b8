import ProtoSchema.Proofs.Fault
import ProtoSchema.Proofs.Plan
import ProtoSchema.Session.Writing

/-!
The line width changes nothing but line breaks.

Every use of a writer follows a plan: the pieces it sets do not depend on the width, and neither
does anything else that comes of it but the text. So the texts for two widths differ in gaps that
have given way to a newline and a continuation.
-/

namespace ProtoSchema

open Layout

/-! ### Outcomes -/

namespace Layout

namespace Writer

/-- A change of indentation, refused or not whatever the width and the column are. -/
structure Shifts (change : Writer → Except LayoutError Writer) : Prop where
  kept : ∀ {v w : Writer}, change v = .ok w → w.cursor = v.cursor ∧ w.style = v.style
  alike : ∀ {v w : Writer}, v.Alike w → (∃ e, change v = .error e ∧ change w = .error e) ∨
    ∃ v' w', change v = .ok v' ∧ change w = .ok w' ∧ v'.Alike w'

lemma shifts_of_level {change : Writer → Except LayoutError Writer}
    (level? : Nat → Nat → Except LayoutError Nat)
    (hc : ∀ w, change w = (level? w.level w.style.indentSize).map fun l => { w with level := l }) :
    Shifts change := by
  constructor
  · intro v w h
    rw [hc] at h
    cases hl : level? v.level v.style.indentSize with
    | error e => simp [hl, Except.map] at h
    | ok l =>
      simp only [hl, Except.map, Except.ok.injEq] at h
      subst h
      exact ⟨rfl, rfl⟩
  · intro v w h
    rw [hc, hc, h.level, h.indentSize]
    cases level? w.level w.style.indentSize with
    | error e => exact .inl ⟨e, rfl, rfl⟩
    | ok l => exact .inr ⟨_, _, rfl, rfl, h.unit, h.indentSize, rfl, h.lineStart, h.comment, h.held⟩

lemma shifts_indent (levels : Option Int) : Shifts (indent · levels) := by
  refine shifts_of_level (fun level size => if levels.getD size ≤ 0 then .error .indentNotPositive
    else .ok (level + (levels.getD size).toNat)) fun w => ?_
  unfold indent levelsMeant
  split <;> rfl

lemma shifts_unindent (levels : Option Int) : Shifts (unindent · levels) := by
  refine shifts_of_level (fun level size =>
    if level - levels.getD size < 0 then .error (.indentBelowZero (levels.getD size) level)
    else .ok (level - levels.getD size).toNat) fun w => ?_
  unfold unindent levelsMeant
  split <;> rfl

lemma Alike.stepIn {v w : Writer} (h : v.Alike w) : v.stepIn.Alike w.stepIn := by
  refine ⟨h.unit, h.indentSize, ?_, h.lineStart, h.comment, h.held⟩
  rw [stepIn_level, stepIn_level, h.level, h.indentSize]

end Writer

namespace Outcome

variable {ε : Type}

/-- The pieces set next, unless there was an error. -/
def planNext (o : Outcome ε) (next : Writer → List Piece) : List Piece :=
  match o.error with
  | some _ => []
  | none => next o.writer

/-- A use of a writer that follows a plan and fails whatever the width and the column are. -/
structure Follows (use : Writer → Outcome ε) (plan : Writer → List Piece) : Prop where
  planned : Writer.Planned (fun w => ((use w).text, (use w).writer)) plan
  error : ∀ {v w : Writer}, v.Alike w → (use v).error = (use w).error

namespace Follows

lemma ofWritten {write : Writer → List Char × Writer} {plan : Writer → List Piece}
    (h : Writer.Planned write plan) : Follows (fun w => .ofWritten (ε := ε) (write w)) plan :=
  ⟨h, fun _ => rfl⟩

lemma failed (e : ε) : Follows (fun w => .failed w e) fun _ => [] :=
  ⟨.nothing, fun _ => rfl⟩

lemma ofChange (lift : LayoutError → ε) {change : Writer → Except LayoutError Writer}
    (h : Writer.Shifts change) : Follows (fun w => .ofChange lift w (change w)) fun _ => [] := by
  refine ⟨⟨fun w => ?_, fun {v w} hvw => ⟨?_, rfl⟩⟩, fun {v w} hvw => ?_⟩
  · cases hc : change w with
    | error e => exact (Writer.Planned.nothing).sets w
    | ok w' =>
      obtain ⟨hk, hs⟩ := h.kept hc
      refine ⟨rfl, ?_, hs, fun hw => ⟨by simp, ?_⟩⟩
      · exact congrArg Cursor.column hk
      · exact (congrArg Cursor.held hk) ▸ hw
  · rcases h.alike hvw with ⟨e, hv, hw⟩ | ⟨v', w', hv, hw, ha⟩
    · simp only [hv, hw]
      exact hvw
    · simp only [hv, hw]
      exact ha
  · rcases h.alike hvw with ⟨e, hv, hw⟩ | ⟨v', w', hv, hw, ha⟩ <;> rw [hv, hw] <;> rfl

variable {f g : Writer → Outcome ε} {p q : Writer → List Piece}

/-- What is done next may depend on anything that widths and columns do not change. -/
lemma andThenBy {β : Type} {g : β → Writer → Outcome ε} {q : β → Writer → List Piece}
    (hf : Follows f p) (seen : Writer → β) (hs : ∀ {v w : Writer}, v.Alike w → seen v = seen w)
    (hg : ∀ b, Follows (g b) (q b)) :
    Follows (fun w => (f w).andThen (g (seen w))) fun w => p w ++ (f w).planNext (q (seen w)) := by
  refine ⟨⟨fun w => ?_, fun {v w} h => ?_⟩, fun {v w} h => ?_⟩
  · cases he : (f w).error with
    | some e =>
      simp only [Outcome.andThen_of_error he, planNext, he, List.append_nil]
      exact hf.planned.sets w
    | none =>
      simp only [Outcome.andThen_of_no_error he, planNext, he]
      exact (hf.planned.sets w).append ((hg (seen w)).planned.sets (f w).writer)
  · obtain ⟨ha, hp⟩ := hf.planned.alike h
    have hv := hf.error h
    cases he : (f w).error with
    | some e =>
      rw [he] at hv
      simp only [Outcome.andThen_of_error he, Outcome.andThen_of_error hv, planNext, he, hv, hp]
      exact ⟨ha, trivial⟩
    | none =>
      rw [he] at hv
      obtain ⟨hb, hq⟩ := (hg (seen w)).planned.alike ha
      simp only [Outcome.andThen_of_no_error he, Outcome.andThen_of_no_error hv, planNext, he, hv,
        hp, hs h]
      exact ⟨hb, congrArg _ hq⟩
  · obtain ⟨ha, -⟩ := hf.planned.alike h
    have hv := hf.error h
    cases he : (f w).error with
    | some e =>
      rw [he] at hv
      rw [Outcome.andThen_of_error he, Outcome.andThen_of_error hv, he, hv]
    | none =>
      rw [he] at hv
      rw [Outcome.andThen_of_no_error he, Outcome.andThen_of_no_error hv, hs h]
      exact (hg (seen w)).error ha

lemma andThen (hf : Follows f p) (hg : Follows g q) :
    Follows (fun w => (f w).andThen g) fun w => p w ++ (f w).planNext q :=
  hf.andThenBy (fun _ => ()) (fun _ => rfl) fun _ => hg

lemma mapError {ε' : Type} (lift : ε → ε') (hf : Follows f p) :
    Follows (fun w => (f w).mapError lift) p :=
  ⟨hf.planned, fun h => congrArg (Option.map lift) (hf.error h)⟩

lemma leaveBody (lift : LayoutError → ε) (hf : Follows f p) :
    Follows (fun w => (f w).leaveBody lift) p := by
  have hu := Writer.shifts_unindent none
  refine ⟨⟨fun w => ?_, fun {v w} h => ?_⟩, fun {v w} h => ?_⟩
  · have hs := hf.planned.sets w
    unfold Outcome.leaveBody
    cases hc : (f w).writer.unindent none with
    | error e => exact hs
    | ok w' =>
      obtain ⟨hk, hst⟩ := hu.kept hc
      have hcol : w'.cursor.column = _ := (congrArg Cursor.column hk).trans hs.column
      exact ⟨hs.text, hcol, hst.trans hs.style, hk ▸ hs.proper⟩
  · obtain ⟨ha, hp⟩ := hf.planned.alike h
    refine ⟨?_, hp⟩
    unfold Outcome.leaveBody
    rcases hu.alike ha with ⟨e, hv, hw⟩ | ⟨v', w', hv, hw, hb⟩
    · simp only [hv, hw]
      exact ha
    · simp only [hv, hw]
      exact hb
  · have ha := (hf.planned.alike h).1
    unfold Outcome.leaveBody
    rcases hu.alike ha with ⟨e, hv, hw⟩ | ⟨v', w', hv, hw, hb⟩
    · simp only [hv, hw]
    · simp only [hv, hw]
      exact hf.error h

lemma stepIn (hf : Follows f p) : Follows (fun w => f w.stepIn) fun w => p w.stepIn :=
  ⟨⟨fun w => ⟨(hf.planned.sets w.stepIn).text, (hf.planned.sets w.stepIn).column,
    (hf.planned.sets w.stepIn).style, (hf.planned.sets w.stepIn).proper⟩,
    fun h => hf.planned.alike h.stepIn⟩, fun h => hf.error h.stepIn⟩

end Follows

end Outcome

end Layout

/-! ### Scripts -/

namespace Print

mutual

def Step.plan : Step → Writer → List Piece
  | .emit text, w => w.emitPlan text.toList
  | .comment lines, w => w.commentPlan lines
  | .indent _, _ | .unindent _, _ | .fail _, _ => []
  | .body steps, w => Script.plan steps w.stepIn

def Script.plan : Script → Writer → List Piece
  | [], _ => []
  | step :: steps, w => step.plan w ++ (step.run w).planNext (Script.plan steps)

end

mutual

lemma Step.follows : ∀ s : Step, Outcome.Follows s.run s.plan
  | .emit text => .ofWritten (.emit text.toList)
  | .comment lines => .ofWritten (.emitComment lines)
  | .indent levels => .ofChange PrintError.layout (Writer.shifts_indent levels)
  | .unindent levels => .ofChange PrintError.layout (Writer.shifts_unindent levels)
  | .body steps => by
    have h := ((Script.follows steps).leaveBody PrintError.layout).stepIn
    have hr : Step.run (.body steps) =
        fun w => (Script.run steps w.stepIn).leaveBody PrintError.layout := by
      funext w
      rw [Step.run, Writer.indent_none]
    rw [hr]
    exact h
  | .fail error => .failed error

lemma Script.follows : ∀ s : Script, Outcome.Follows (Script.run s) (Script.plan s)
  | [] => ⟨.nothing, fun _ => rfl⟩
  | step :: steps => (Step.follows step).andThen (Script.follows steps)

end

end Print

/-! ### Sessions -/

namespace Session

open Print

/-- A use of a writer in a session that follows a plan, and leaves a state of which the
same is true. -/
structure Progress.Follows (use : Writer → Progress) (plan : Writer → List Piece) : Prop where
  outcome : Outcome.Follows (fun w => (use w).outcome) plan
  state : ∀ {v w : Writer}, v.Alike w → (use v).state = (use w).state

/-- The pieces set next, unless there was a failure. -/
def Progress.planNext (p : Progress) (next : State → Writer → List Piece) : List Piece :=
  p.outcome.planNext (next p.state)

namespace Progress.Follows

variable {f : Writer → Progress} {g : State → Writer → Progress} {p : Writer → List Piece}
  {q : State → Writer → List Piece}

lemma of_outcome {use : Writer → Outcome Failure} (s : State) (h : Outcome.Follows use p) :
    Follows (fun w => ⟨s, use w⟩) p := ⟨h, fun _ => rfl⟩

lemma andThen (hf : Follows f p) (hg : ∀ s, Follows (g s) (q s)) :
    Follows (fun w => (f w).andThen g) fun w => p w ++ (f w).planNext q := by
  have ho : ∀ w, ((f w).andThen g).outcome =
      (f w).outcome.andThen fun v => (g (f w).state v).outcome := by
    intro w
    cases he : (f w).outcome.error <;> simp [Progress.andThen, Outcome.andThen, he]
  refine ⟨?_, fun {v w} h => ?_⟩
  · simp only [ho]
    exact hf.outcome.andThenBy (fun w => (f w).state) hf.state fun s => (hg s).outcome
  · have he := hf.outcome.error h
    have ha := (hf.outcome.planned.alike h).1
    unfold Progress.andThen
    rw [he, hf.state h]
    split
    · exact hf.state h
    · exact (hg (f w).state).state ha

lemma emit (text : String) (s : State) : Follows (Progress.emit text s) (·.emitPlan text.toList) :=
  .of_outcome s (.ofWritten (.emit text.toList))

lemma body (hf : Follows (g s) (q s)) : Follows (Progress.body g s) fun w => q s w.stepIn := by
  have hr : ∀ w, Progress.body g s w =
      ⟨(g s w.stepIn).state, (g s w.stepIn).outcome.leaveBody .layout⟩ := by
    intro w
    rw [Progress.body, Writer.indent_none]
  refine ⟨?_, fun {v w} h => ?_⟩
  · simp only [hr]
    exact (hf.outcome.leaveBody Failure.layout).stepIn
  · rw [hr, hr]
    exact hf.state h.stepIn

end Progress.Follows

/-- The pieces of the node that an expression gives. -/
def nodePlan (e : Expr) (s : State) (w : Writer) : List Piece :=
  match runFrom s (do Run.node (← e.eval)) with
  | (_, .ok n) => n.script.plan w
  | (_, .error _) => []

lemma follows_writeNode (lift : PrintError → Failure) (e : Expr) (s : State) :
    Progress.Follows (writeNode lift e s) (nodePlan e s) := by
  unfold writeNode nodePlan
  rcases runFrom s (do Run.node (← e.eval)) with ⟨t, f | n⟩
  · exact .of_outcome t (.failed f)
  · exact .of_outcome t ((Script.follows n.script).mapError lift)

mutual

def WriterStep.plan : WriterStep → State → Writer → List Piece
  | .emit text, _, w => w.emitPlan text.toList
  | .comment lines, _, w => w.commentPlan lines
  | .indent _, _, _ | .unindent _, _, _ | .fail _, _, _ => []
  | .scope header sections, s, w =>
    let opening := header ++ " \x7b" ++ if sections.isEmpty then "" else "\n"
    w.emitPlan opening.toList ++
      (Progress.emit opening s w).planNext (WriterStep.sectionsPlan sections) ++
      ((Progress.emit opening s w).andThen (WriterStep.runSections sections)).planNext fun _ v =>
        v.emitPlan "\x7d\n".toList
  | .node e, s, w => nodePlan e s w
  | .rendered e, s, w => nodePlan e s w

def WriterStep.allPlan : List WriterStep → State → Writer → List Piece
  | [], _, _ => []
  | step :: steps, s, w => step.plan s w ++ (step.run s w).planNext (WriterStep.allPlan steps)

def WriterStep.sectionsPlan : List (List WriterStep) → State → Writer → List Piece
  | [], _, _ => []
  | steps :: sections, s, w =>
    w.emitPlan "\n".toList ++
      (Progress.emit "\n" s w).planNext (fun s v => WriterStep.allPlan steps s v.stepIn) ++
      ((Progress.emit "\n" s w).andThen (.body (WriterStep.runAll steps))).planNext
        (WriterStep.sectionsPlan sections)

end

mutual

lemma WriterStep.follows : ∀ (step : WriterStep) (s : State),
    Progress.Follows (step.run s) (step.plan s)
  | .emit text, s => .emit text s
  | .comment lines, s => .of_outcome s (.ofWritten (.emitComment lines))
  | .indent levels, s => .of_outcome s (.ofChange Failure.layout (Writer.shifts_indent levels))
  | .unindent levels, s => .of_outcome s (.ofChange Failure.layout (Writer.shifts_unindent levels))
  | .scope _ sections, s =>
    ((Progress.Follows.emit _ s).andThen (WriterStep.follows_sections sections)).andThen
      (.emit "\x7d\n")
  | .node e, s => follows_writeNode .ofWriting e s
  | .rendered e, s => follows_writeNode .ofRendering e s
  | .fail message, s => .of_outcome s (.failed (Failure.raised message))

lemma WriterStep.follows_all : ∀ (steps : List WriterStep) (s : State),
    Progress.Follows (WriterStep.runAll steps s) (WriterStep.allPlan steps s)
  | [], s => .of_outcome s ⟨.nothing, fun _ => rfl⟩
  | step :: steps, s => (WriterStep.follows step s).andThen (WriterStep.follows_all steps)

lemma WriterStep.follows_sections : ∀ (sections : List (List WriterStep)) (s : State),
    Progress.Follows (WriterStep.runSections sections s) (WriterStep.sectionsPlan sections s)
  | [], s => .of_outcome s ⟨.nothing, fun _ => rfl⟩
  | steps :: sections, s =>
    ((Progress.Follows.emit "\n" s).andThen fun t => .body (WriterStep.follows_all steps t)).andThen
      (WriterStep.follows_sections sections)

end

/-! ### Two widths -/

/-- The pieces that a sequence of steps sets; a step that fails does not end it. -/
def stepsPlan (s : State) (w : Writer) : List WriterStep → List Piece
  | [] => []
  | step :: steps =>
    step.plan s w ++ stepsPlan (step.run s w).state (step.run s w).outcome.writer steps

lemma text_outcomes (s : State) (w : Writer) (steps : List WriterStep) :
    (outcomes s w steps).flatMap (·.text) =
      fill w.style.lineWidth w.cursor.column (stepsPlan s w steps) := by
  induction steps generalizing s w with
  | nil => rfl
  | cons step steps ih =>
    have hs := (step.follows s).outcome.planned.sets w
    have hi := ih (step.run s w).state (step.run s w).outcome.writer
    have hc : (step.run s w).outcome.writer.cursor.column = _ := hs.column
    have hst : (step.run s w).outcome.writer.style = w.style := hs.style
    have ht : (step.run s w).outcome.text = _ := hs.text
    rw [hc, hst, ht] at hi
    rw [outcomes, stepsPlan, fill_append, List.flatMap_cons, hi, ht]

lemma proper_stepsPlan {w : Writer} (hw : ∀ c ∈ w.cursor.held, c = ' ') (s : State)
    (steps : List WriterStep) : ∀ p ∈ stepsPlan s w steps, p.Proper w.style.unit := by
  induction steps generalizing s w with
  | nil => simp [stepsPlan]
  | cons step steps ih =>
    have hs := (step.follows s).outcome.planned.sets w
    have hst : (step.run s w).outcome.writer.style = w.style := hs.style
    obtain ⟨hp, hh⟩ := hs.proper hw
    have hi := ih hh (step.run s w).state
    rw [hst] at hi
    exact List.forall_mem_append.2 ⟨hp, hi⟩

/-- What can be seen of an outcome without its text. -/
def visible (o : Outcome Failure) : Option Failure × Nat × List Char :=
  (o.error, o.writer.level, o.writer.cursor.held)

lemma outcomes_alike {v w : Writer} (h : v.Alike w) (s : State) (steps : List WriterStep) :
    (outcomes s v steps).map visible = (outcomes s w steps).map visible ∧
      stepsPlan s v steps = stepsPlan s w steps := by
  induction steps generalizing s v w with
  | nil => exact ⟨rfl, rfl⟩
  | cons step steps ih =>
    have hf := step.follows s
    obtain ⟨ha, hp⟩ := hf.outcome.planned.alike h
    have he := hf.outcome.error h
    obtain ⟨hi, hps⟩ := ih ha (step.run s w).state
    have hv : visible (step.run s v).outcome = visible (step.run s w).outcome := by
      rw [visible, visible, he, ha.level, ha.held]
    simp only [outcomes, stepsPlan, List.map_cons, hf.state h, hv, hp, hi, hps]
    exact ⟨trivial, trivial⟩

/-- **Line width**: two styles that differ in the line width only lead to the same errors, the same
levels and the same spaces held back after every step. Where the wide style has room for every line,
the text in the narrow style is the text in the wide style with some gaps replaced by a newline and
a continuation. Outside of comments, and indented by spaces, both texts have the same words. -/
theorem outcomes_rebroken (s : State) (steps : List WriterStep) {narrow wide : Style}
    (hu : narrow.unit = wide.unit) (hz : narrow.indentSize = wide.indentSize) :
    (outcomes s (.ofStyle narrow) steps).map visible =
        (outcomes s (.ofStyle wide) steps).map visible ∧
      Rebroken (stepsPlan s (.ofStyle wide) steps)
        ((outcomes s (.ofStyle narrow) steps).flatMap (·.text)) ∧
      ((∀ l ∈ lines (unbroken (stepsPlan s (.ofStyle wide) steps)), l.length ≤ wide.lineWidth) →
        (outcomes s (.ofStyle wide) steps).flatMap (·.text) =
          unbroken (stepsPlan s (.ofStyle wide) steps)) ∧
      ((∀ c ∈ wide.unit, c = ' ') → (∀ p ∈ stepsPlan s (.ofStyle wide) steps, p.IsStatement) →
        words ((outcomes s (.ofStyle narrow) steps).flatMap (·.text)) =
          words ((outcomes s (.ofStyle wide) steps).flatMap (·.text))) := by
  have ha : (Writer.ofStyle narrow).Alike (.ofStyle wide) := ⟨hu, hz, rfl, rfl, rfl, rfl⟩
  obtain ⟨hv, hps⟩ := outcomes_alike ha s steps
  have hheld : ∀ c ∈ (Writer.ofStyle wide).cursor.held, c = ' ' := by
    intro c hc
    exact absurd hc List.not_mem_nil
  have hp := proper_stepsPlan hheld s steps
  have hn := text_outcomes s (.ofStyle narrow) steps
  have hw := text_outcomes s (.ofStyle wide) steps
  rw [hps] at hn
  have hrn : Rebroken (stepsPlan s (.ofStyle wide) steps)
      ((outcomes s (.ofStyle narrow) steps).flatMap (·.text)) := by
    rw [hn]
    exact rebroken_fill hp _ _
  have hrw : Rebroken (stepsPlan s (.ofStyle wide) steps)
      ((outcomes s (.ofStyle wide) steps).flatMap (·.text)) := by
    rw [hw]
    exact rebroken_fill hp _ _
  refine ⟨hv, hrn, fun hl => ?_, fun hb hs => ?_⟩
  · rw [hw]
    exact fill_of_fits hp (fits_zero_iff.2 hl)
  · rw [hrn.words_eq hb hp hs, hrw.words_eq hb hp hs]

/-- A statement broken at a width of ten; the level cannot be lowered at either width. -/
theorem outcomes_rebroken_syntax :
    let steps : List WriterStep := [.emit "syntax = \"proto3\";\n", .unindent none]
    let narrow : Style := { Style.usual with lineWidth := 10, lineWidth_pos := by decide }
    narrow.unit = Style.usual.unit ∧ narrow.indentSize = Style.usual.indentSize ∧
      (outcomes {} (.ofStyle narrow) steps).filterMap (·.error) = [.layout (.indentBelowZero 2 0)] ∧
      (outcomes {} (.ofStyle narrow) steps).map visible =
        (outcomes {} (.ofStyle .usual) steps).map visible ∧
      (outcomes {} (.ofStyle narrow) steps).flatMap (·.text) =
        "syntax =\n    \"proto3\";\n".toList ∧
      (outcomes {} (.ofStyle .usual) steps).flatMap (·.text) =
        unbroken (stepsPlan {} (.ofStyle .usual) steps) := by
  intro steps narrow
  obtain ⟨hv, -, hk, -⟩ := @outcomes_rebroken {} steps narrow .usual rfl rfl
  exact ⟨rfl, rfl, rfl, hv, by decide, hk (by decide)⟩

end Session

end ProtoSchema
