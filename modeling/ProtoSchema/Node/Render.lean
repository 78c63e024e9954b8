import ProtoSchema.Node.Basic
import ProtoSchema.Print.Failing

/-!
The text of a node.

Printing on a fresh writer gives the text or the first error. A check keeps the error only.
-/

namespace ProtoSchema

open Layout Print

namespace Node

/-- Writes the node on a writer in whatever state it is. -/
def emit (n : Node) (w : Writer) : Outcome PrintError := Script.run n.script w

/-- The text of the node in a style. -/
def print (n : Node) (style : Style) : Except PrintError String :=
  let o := n.emit (.ofStyle style)
  match o.error with
  | some e => .error e
  | none => .ok (String.ofList o.text)

/-- Whether the node can be printed in a style. The text is not kept, so it is not indented. -/
def check (n : Node) (style : Style) : Except PrintError Unit :=
  match (n.emit (.ofStyle style.flat)).error with
  | some e => .error e
  | none => .ok ()

/-- A check fails where printing does, and for the same reason. -/
theorem check_eq_print (n : Node) (style : Style) :
    n.check style = (n.print style).map fun _ => () := by
  unfold check print
  rw [show (n.emit (.ofStyle style.flat)).error = (n.emit (.ofStyle style)).error from
    (Script.endAlike n.script (Writer.pace_ofStyle_flat style)).1]
  cases h : (n.emit (.ofStyle style)).error <;> simp [h, Except.map]

end Node

end ProtoSchema
