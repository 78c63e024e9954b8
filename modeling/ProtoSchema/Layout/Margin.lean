/-!
What stands in front of a line: copies of the unit of indentation, and a marker behind them.

How long a margin is follows from its parts. Its text is made only where it is written, for the
number of copies may be large. It may be any number here; that is an idealisation, since a machine
has a limit to how long a text of copies it makes.
-/

namespace ProtoSchema.Layout

/-- Several copies of a text in a row; copies of nothing are nothing, however many there are. -/
def copies (n : Nat) (text : List Char) : List Char :=
  if text.isEmpty then [] else (List.replicate n text).flatten

theorem copies_eq (n : Nat) (text : List Char) :
    copies n text = (List.replicate n text).flatten := by
  cases text <;> simp [copies]

@[simp] theorem length_copies (n : Nat) (text : List Char) :
    (copies n text).length = n * text.length := by
  simp [copies_eq]

structure Margin where
  unit : List Char := []
  count : Nat := 0
  marker : List Char := []
  deriving DecidableEq, Repr

namespace Margin

/-- A margin that is a text of its own. -/
def ofText (text : List Char) : Margin := { marker := text }

def text (m : Margin) : List Char := copies m.count m.unit ++ m.marker

def length (m : Margin) : Nat := m.count * m.unit.length + m.marker.length

theorem length_text (m : Margin) : m.text.length = m.length := by simp [text, length]

@[simp] theorem text_ofText (text : List Char) : (ofText text).text = text := by
  simp [ofText, Margin.text, copies]

end Margin

end ProtoSchema.Layout
