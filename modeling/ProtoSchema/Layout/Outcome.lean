import ProtoSchema.Layout.Writer

/-!
What a use of a writer comes to: the text written, the writer left, and the error that ended it.
-/

namespace ProtoSchema.Layout

structure Outcome (ε : Type) where
  text : List Char
  writer : Writer
  error : Option ε := none

namespace Outcome

variable {ε ε' : Type}

def ofWritten (written : List Char × Writer) : Outcome ε := ⟨written.1, written.2, none⟩

def failed (w : Writer) (error : ε) : Outcome ε := ⟨[], w, some error⟩

/-- A change of indentation, which leaves the writer as it was if it is refused. -/
def ofChange (lift : LayoutError → ε) (w : Writer) : Except LayoutError Writer → Outcome ε
  | .ok changed => ⟨[], changed, none⟩
  | .error e => failed w (lift e)

/-- Goes on with the writer left, unless there was an error. -/
def andThen (o : Outcome ε) (next : Writer → Outcome ε) : Outcome ε :=
  match o.error with
  | some _ => o
  | none =>
    let rest := next o.writer
    { rest with text := o.text ++ rest.text }

/-- Leaves an indented body, whether it failed or not. A level that cannot be lowered is the
error reported, also in place of one from the body. -/
def leaveBody (lift : LayoutError → ε) (o : Outcome ε) : Outcome ε :=
  match o.writer.unindent none with
  | .ok w => { o with writer := w }
  | .error e => { o with error := some (lift e) }

def mapError (f : ε → ε') (o : Outcome ε) : Outcome ε' :=
  ⟨o.text, o.writer, o.error.map f⟩

/-! ### One after another -/

theorem andThen_of_error {o : Outcome ε} {e : ε} (h : o.error = some e)
    (next : Writer → Outcome ε) :
    o.andThen next = o := by
  simp [andThen, h]

theorem andThen_of_no_error {o : Outcome ε} (h : o.error = none) (next : Writer → Outcome ε) :
    o.andThen next = { next o.writer with text := o.text ++ (next o.writer).text } := by
  simp [andThen, h]

theorem andThen_assoc (o : Outcome ε) (f g : Writer → Outcome ε) :
    (o.andThen f).andThen g = o.andThen fun w => (f w).andThen g := by
  cases ho : o.error with
  | some e => simp [andThen, ho]
  | none => cases hf : (f o.writer).error <;> simp [andThen, ho, hf]

@[simp] theorem nothing_andThen (w : Writer) (next : Writer → Outcome ε) :
    Outcome.andThen ⟨[], w, none⟩ next = next w := by
  simp [andThen]

end Outcome

end ProtoSchema.Layout
