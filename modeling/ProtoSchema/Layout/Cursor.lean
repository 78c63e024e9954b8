import ProtoSchema.Layout.InOrder
import ProtoSchema.Layout.Margin
import ProtoSchema.Layout.Segment

/-!
The end of the output: a column, and spaces held back.

Text is written as it is by `append`. A run written by `wrap` may be broken in front of a word,
where the gap is replaced by a newline and a continuation. Spaces that end a run are held back, so
that the next run can still break there. Every operation returns the text it writes.
-/

namespace ProtoSchema.Layout

/-- The column that a text reaches when it is written from column `start`. -/
def columnAfter (start : Nat) (text : List Char) : Nat :=
  text.foldl (fun column c => if c = '\n' then 0 else column + 1) start

@[simp] theorem columnAfter_nil (start : Nat) : columnAfter start [] = start := rfl

theorem columnAfter_append (start : Nat) (a b : List Char) :
    columnAfter start (a ++ b) = columnAfter (columnAfter start a) b := by
  simp [columnAfter, List.foldl_append]

structure Cursor where
  column : Nat := 0
  held : List Char := []
  deriving DecidableEq, Repr

namespace Cursor

/-- Writes a text as it is, after the spaces held back. -/
def append (c : Cursor) (text : List Char) : List Char × Cursor :=
  (c.held ++ text, ⟨columnAfter c.column (c.held ++ text), []⟩)

/-- The gap in front of a word, spaces held back included. -/
def gapBefore (c : Cursor) (s : Segment) : List Char := c.held ++ s.gap

/-- The word and its gap end within the width. -/
def fits (c : Cursor) (width : Nat) (s : Segment) : Bool :=
  c.column + (c.gapBefore s).length + s.word.length ≤ width

/-- A break needs a gap to replace, and has to make the line shorter. -/
def canBreak (c : Cursor) (continuation : Margin) (s : Segment) : Bool :=
  !(c.gapBefore s).isEmpty && continuation.length < c.column

/-- Writes one segment, on the line where it stands or on a line of its own. -/
def place (width : Nat) (continuation : Margin) (c : Cursor) (s : Segment) : List Char × Cursor :=
  if s.word.isEmpty then ([], { c with held := c.gapBefore s })
  else if c.fits width s || !c.canBreak continuation s then
    append { c with held := [] } (c.gapBefore s ++ s.word)
  else append { c with held := [] } ('\n' :: continuation.text ++ s.word)

def placeAll (width : Nat) (continuation : Margin) (c : Cursor) (ss : List Segment) :
    List Char × Cursor :=
  writeAll (place width continuation) c ss

/-- Writes a run of text without newlines, broken where it overflows the width. -/
def wrap (width : Nat) (continuation : Margin) (quoteAware : Bool) (c : Cursor) (text : List Char) :
    List Char × Cursor :=
  c.placeAll width continuation (segments quoteAware text)

/-- Writes a run of text that is given in pieces. -/
def wrapPieces (width : Nat) (continuation : Margin) (quoteAware : Bool) (c : Cursor)
    (pieces : List (List Char)) : List Char × Cursor :=
  c.placeAll width continuation (segmentsOfPieces quoteAware pieces)

/-! ### The column is true -/

theorem column_append (c : Cursor) (text : List Char) :
    (c.append text).2.column = columnAfter c.column (c.append text).1 := rfl

theorem column_place (width : Nat) (continuation : Margin) (c : Cursor) (s : Segment) :
    (place width continuation c s).2.column =
      columnAfter c.column (place width continuation c s).1 := by
  unfold place
  split
  · rfl
  · split <;> rfl

theorem column_placeAll (width : Nat) (continuation : Margin) (c : Cursor) (ss : List Segment) :
    (placeAll width continuation c ss).2.column =
      columnAfter c.column (placeAll width continuation c ss).1 := by
  induction ss generalizing c with
  | nil => rfl
  | cons s ss ih =>
    simp only [placeAll, writeAll_cons] at ih ⊢
    rw [ih, column_place, columnAfter_append]

end Cursor

end ProtoSchema.Layout
