import ProtoSchema.Layout.Outcome
import ProtoSchema.Literal.Format
import ProtoSchema.Number.WholeText
import ProtoSchema.Usage.FieldScope

/-!
What is to be written, as data: a script is a list of steps for a writer.

A script is fixed before it runs and does not depend on the writer. A step that fails ends the run;
what was written before it stays written.
-/

namespace ProtoSchema.Print

open Layout

/-- Why a run ends early. -/
inductive PrintError where
  | layout (e : LayoutError)
  | conflict (c : Usage.Conflict)
  /-- The numbers of a reservation cannot be listed. -/
  | listing (e : ListingError)
  /-- A number cannot be written. -/
  | number (e : Number.WholeError)
  | literal (e : FormatError)
  /-- A bare node has no text. -/
  | noText
  deriving DecidableEq, Repr

inductive Step where
  | emit (text : String)
  | comment (lines : List String)
  | indent (levels : Option Int)
  | unindent (levels : Option Int)
  /-- Steps one indent step further in; the level is lowered again even if they fail. -/
  | body (steps : List Step)
  | fail (error : PrintError)

abbrev Script := List Step

mutual

def Step.run : Step → Writer → Outcome PrintError
  | .emit text, w => .ofWritten (w.emit text.toList)
  | .comment lines, w => .ofWritten (w.emitComment lines)
  | .indent levels, w => .ofChange .layout w (w.indent levels)
  | .unindent levels, w => .ofChange .layout w (w.unindent levels)
  | .body steps, w =>
    match w.indent none with
    | .ok inner => (Script.run steps inner).leaveBody .layout
    | .error e => .failed w (.layout e)
  | .fail error, w => .failed w error

/-- Runs the steps one after another, up to the first that fails. -/
def Script.run : Script → Writer → Outcome PrintError
  | [], w => ⟨[], w, none⟩
  | step :: steps, w => (step.run w).andThen (Script.run steps)

end

namespace Script

theorem run_append (a b : Script) (w : Writer) :
    Script.run (a ++ b) w = (Script.run a w).andThen (Script.run b) := by
  induction a generalizing w with
  | nil => simp [Script.run]
  | cons step steps ih =>
    simp only [List.cons_append, Script.run, Outcome.andThen_assoc]
    exact congrArg _ (funext ih)

end Script

def PrintError.ofRejection : Usage.Rejection → PrintError
  | .conflict c => .conflict c
  | .unlisted e => .listing e

/-- The failing step for a rejection, if there is one. -/
def guard : Option Usage.Rejection → Script
  | none => []
  | some r => [.fail (.ofRejection r)]

/-- A step that writes a text with numbers in it, if none of them is too long. -/
def Step.numbered (numbers : List Int) (text : String) : Step :=
  if numbers.any Number.tooLong then .fail (.number .tooLong) else .emit text

/-- A step that writes a literal inside a text, if the value has a literal. -/
def Step.literal (before : String) (literal : Except FormatError String) (after : String) : Step :=
  match literal with
  | .ok text => .emit (before ++ text ++ after)
  | .error e => .fail (.literal e)

/-- A braced body of sections, each below a blank line. -/
def scope (header : String) (sections : List Script) : Script :=
  .emit (header ++ " \x7b") ::
    ((if sections.isEmpty then [] else [.emit "\n"]) ++
      sections.flatMap (fun s => [.emit "\n", .body s]) ++ [.emit "\x7d\n"])

/-- A section for some elements, unless there are none. -/
def sectionFor {α : Type} (elements : List α) (script : Script) : List Script :=
  if elements.isEmpty then [] else [script]

end ProtoSchema.Print
