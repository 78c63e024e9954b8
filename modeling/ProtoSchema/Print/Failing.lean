import ProtoSchema.Print.Script

/-!
Whether a script fails.

What ends a run depends on the level and on the indent size alone: neither what is written nor where
it is broken matters. So a text that is not kept may be written without indentation.
-/

namespace ProtoSchema.Print

open Layout

/-- Two uses of writers that end the same way and can go on the same way. -/
def EndAlike {ε : Type} (o p : Outcome ε) : Prop :=
  o.error = p.error ∧ o.writer.pace = p.writer.pace

namespace EndAlike

variable {ε : Type}

theorem ofWritten {v w : List Char × Writer} (h : v.2.pace = w.2.pace) :
    EndAlike (Outcome.ofWritten v : Outcome ε) (.ofWritten w) := ⟨rfl, h⟩

/-- A change of indentation that is refused for both writers, or changes both alike. -/
theorem ofChange (lift : LayoutError → ε) {v w : Writer} (h : v.pace = w.pace)
    {x y : Except LayoutError Writer} (hxy : Writer.ChangedAlike x y) :
    EndAlike (.ofChange lift v x) (.ofChange lift w y) := by
  rcases hxy with ⟨e, rfl, rfl⟩ | ⟨v', w', rfl, rfl, h'⟩
  · exact ⟨rfl, h⟩
  · exact ⟨rfl, h'⟩

theorem andThen {o p : Outcome ε} (h : EndAlike o p) {f g : Writer → Outcome ε}
    (hf : ∀ v w : Writer, v.pace = w.pace → EndAlike (f v) (g w)) :
    EndAlike (o.andThen f) (p.andThen g) := by
  cases ho : o.error with
  | some e =>
    rw [Outcome.andThen_of_error ho, Outcome.andThen_of_error (h.1 ▸ ho)]
    exact h
  | none =>
    rw [Outcome.andThen_of_no_error ho, Outcome.andThen_of_no_error (h.1 ▸ ho)]
    exact hf _ _ h.2

theorem leaveBody (lift : LayoutError → ε) {o p : Outcome ε} (h : EndAlike o p) :
    EndAlike (o.leaveBody lift) (p.leaveBody lift) := by
  unfold Outcome.leaveBody
  rcases Writer.unindent_alike h.2 none with ⟨e, ho, hp⟩ | ⟨v, w, ho, hp, h'⟩
  · rw [ho, hp]
    exact ⟨rfl, h.2⟩
  · rw [ho, hp]
    exact ⟨h.1, h'⟩

end EndAlike

mutual

theorem Step.endAlike : ∀ (s : Step) {v w : Writer}, v.pace = w.pace → EndAlike (s.run v) (s.run w)
  | .emit text, v, w, h => by
    simp only [Step.run]
    exact .ofWritten (by rw [Writer.pace_emit, Writer.pace_emit, h])
  | .comment lines, v, w, h => by
    simp only [Step.run]
    exact .ofWritten (by rw [Writer.pace_emitComment, Writer.pace_emitComment, h])
  | .indent levels, v, w, h => by
    simp only [Step.run]
    exact .ofChange _ h (Writer.indent_alike h levels)
  | .unindent levels, v, w, h => by
    simp only [Step.run]
    exact .ofChange _ h (Writer.unindent_alike h levels)
  | .body steps, v, w, h => by
    rcases Writer.indent_alike h none with ⟨e, hv, hw⟩ | ⟨v', w', hv, hw, h'⟩
    · simp only [Step.run, hv, hw]
      exact ⟨rfl, h⟩
    · simp only [Step.run, hv, hw]
      exact (Script.endAlike steps h').leaveBody _
  | .fail error, v, w, h => by
    simp only [Step.run]
    exact ⟨rfl, h⟩

theorem Script.endAlike : ∀ (s : Script) {v w : Writer}, v.pace = w.pace →
    EndAlike (Script.run s v) (Script.run s w)
  | [], v, w, h => by
    simp only [Script.run]
    exact ⟨rfl, h⟩
  | step :: steps, v, w, h => by
    simp only [Script.run]
    exact (Step.endAlike step h).andThen fun _ _ h => Script.endAlike steps h

end

end ProtoSchema.Print
