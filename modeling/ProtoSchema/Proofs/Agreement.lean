import ProtoSchema.Proofs.Uniqueness
import ProtoSchema.Session.Writing

/-!
What keeps a node from being written, wherever it is written.

A script is fixed before it runs and is balanced, so the node alone decides what ends its writing:
neither the style nor the level nor what stands on the line already matters. Printing, checking and
writing report this one error, each in its own way.
-/

namespace ProtoSchema.Session

open Layout Print

/-- The failure that ends a run, if there is one. -/
def failure? {α : Type} (s : State) (r : Run α) : Option Failure :=
  match (runFrom s r).2 with
  | .ok _ => none
  | .error f => some f

section Failures

variable {α β : Type} {s : State} {r : Run α}

lemma failure?_pure (a : α) : failure? s (pure a : Run α) = none := rfl

/-- A step that succeeds and leaves the state as it was does not show. -/
lemma failure?_bind {a : α} (h : r s = .ok a s) (next : α → Run β) :
    failure? s (r >>= next) = failure? s (next a) := by
  have hb : (r >>= next) s = next a s := by
    change EStateM.bind r next s = _
    rw [EStateM.bind, h]
  rw [failure?, failure?, runFrom, runFrom, hb]

/-- A result that is taken up fails with its error. -/
lemma failure?_ofExcept {ε : Type} (lift : ε → Failure) (x : Except ε α) {next : α → Run β}
    (hn : ∀ a, failure? s (next a) = none) :
    failure? s (Run.ofExcept lift x >>= next) = match x with
      | .ok _ => none
      | .error e => some (lift e) := by
  cases x with
  | ok a =>
    have h : (Run.ofExcept lift (.ok a) : Run α) s = .ok a s := rfl
    rw [failure?_bind h, hn]
  | error e => rfl

end Failures

variable (n : Node)

lemma failure?_check (s : State) :
    failure? s (answer n .check []) = n.script.fault?.map .ofRendering := by
  have hc : n.check .usual = _ := n.check_eq_print .usual
  rw [n.print_eq] at hc
  rw [answer, failure?_ofExcept _ _ fun _ => failure?_pure _, hc]
  cases n.script.fault? <;> rfl

variable {args : List Value} {style : Style} {s : State} (h : Run.style args s = .ok style s)

include h

lemma failure?_print : failure? s (answer n .print args) = n.script.fault?.map .ofRendering := by
  have ha : answer n .print args = Run.style args >>= fun style =>
      Run.ofExcept .ofRendering (n.print style) >>= fun text => pure (.text text) := rfl
  rw [ha, failure?_bind h, failure?_ofExcept _ _ fun _ => failure?_pure _, n.print_eq]
  cases n.script.fault? <;> rfl

lemma failure?_write : failure? s (answer n .write args) = n.script.fault?.map .ofWriting := by
  have hc : n.check style = _ := n.check_eq_print style
  rw [n.print_eq] at hc
  rw [answer, failure?_bind h, failure?_ofExcept _ _ fun _ => failure?_pure _, hc]
  cases n.script.fault? <;> rfl

/-- **Agreement**: a node fails with the same error on any two writers, whatever their styles and
states are, and never with a change of indentation. Printing and checking report this error
alike, a conflict as what kept the node from being rendered; writing where the text is dropped
reports it as it is. -/
theorem failures_agree (t : State) (v w : Writer) :
    (n.emit v).error = (n.emit w).error ∧ (∀ e, (n.emit w).error ≠ some (.layout e)) ∧
      failure? s (answer n .print args) = failure? t (answer n .check []) ∧
      failure? t (answer n .check []) = (n.emit w).error.map .ofRendering ∧
      (∀ c, failure? t (answer n .check []) = some (.render c) ↔
        (n.emit w).error = some (.conflict c)) ∧
      failure? s (answer n .write args) = (n.emit w).error.map .ofWriting := by
  have hv := n.error_emit v
  have hw := n.error_emit w
  have hc := failure?_check n t
  have hr : ∀ e c, Failure.ofRendering e = .render c ↔ e = .conflict c := by
    intro e c
    cases e <;> simp [Failure.ofRendering, Failure.ofWriting]
  refine ⟨hv.trans hw.symm, ?_, (failure?_print n h).trans hc.symm, hw ▸ hc, ?_,
    hw ▸ failure?_write n h⟩
  · intro e
    rw [hw]
    exact n.balanced.fault?_ne_layout e
  · intro c
    simp [hc, hw, Option.map_eq_some_iff, hr]

omit h

/-- A reserved number is reported by a check, in lines of sixteen characters, and on a writer in the
middle of a comment with spaces held back. -/
theorem failures_agree_reserved :
    let n := Node.message (.sample 3)
    let args := [Value.settings { lineWidth := some 16 }]
    let style : Style := { Style.usual with lineWidth := 16, lineWidth_pos := by decide }
    let w : Writer :=
      { style, cursor := ⟨9, [' ', ' ']⟩, level := 5, lineStart := false, comment := true }
    Run.style args {} = .ok style {} ∧
      failure? {} (answer n .check []) = some (.render (.reservedNumber 3)) ∧
      failure? {} (answer n .print args) = some (.render (.reservedNumber 3)) ∧
      failure? {} (answer n .write args) = some (.usage (.reservedNumber 3)) ∧
      (n.emit w).error = some (.conflict (.reservedNumber 3)) := by
  intro n args style w
  have hs : Run.style args {} = .ok style {} := rfl
  have hf : n.script.fault? = some (.conflict (.reservedNumber 3)) := by decide +kernel
  have he : (n.emit w).error = some (.conflict (.reservedNumber 3)) := (n.error_emit w).trans hf
  obtain ⟨-, -, hp, hc, -, hw⟩ := failures_agree n hs {} (.ofStyle .usual) w
  rw [he] at hc hw
  exact ⟨hs, hc, hp.trans hc, hw, he⟩

end ProtoSchema.Session
