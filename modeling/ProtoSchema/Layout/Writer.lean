import ProtoSchema.Layout.Cursor
import ProtoSchema.Layout.Style

/-!
A writer that indents and comments what it is given.

Every line a text starts gets the indentation in force, and inside a comment the marker as well.
Lines that are broken for their length continue two indent steps further in, or behind a repeated
marker. An operation returns the text it writes together with the writer it leaves.
-/

namespace ProtoSchema.Layout

/-- One more character in front of lines. -/
def prependChar (c : Char) (ls : List (List Char)) : List (List Char) :=
  if c = '\n' then [] :: ls
  else match ls with
    | [] => [[c]]
    | l :: ls => (c :: l) :: ls

/-- The lines of a text, cut at its newlines; there is always at least one. -/
def lines (text : List Char) : List (List Char) := text.foldr prependChar [[]]

structure Writer where
  style : Style
  cursor : Cursor := {}
  level : Nat := 0
  lineStart : Bool := true
  comment : Bool := false

namespace Writer

/-- A writer at the start of an empty text. -/
def ofStyle (style : Style) : Writer := { style }

def indentation (w : Writer) : Margin := { unit := w.style.unit, count := w.level }

/-- What stands in front of the first text of a line. -/
def margin (w : Writer) : Margin :=
  { w.indentation with marker := if w.comment then ['/', '/', ' '] else [] }

/-- What a line starts with when it continues the one above. -/
def continuation (w : Writer) : Margin :=
  if w.comment then w.margin else { w.margin with count := w.level + 2 * w.style.indentSize }

/-! ### Indentation -/

/-- The number of levels meant, one indent step if none is given. -/
def levelsMeant (w : Writer) (levels : Option Int) : Int := levels.getD w.style.indentSize

def indent (w : Writer) (levels : Option Int) : Except LayoutError Writer :=
  if w.levelsMeant levels ≤ 0 then .error .indentNotPositive
  else .ok { w with level := w.level + (w.levelsMeant levels).toNat }

/-- Lowers the level. Only the level reached is looked at, not the sign of the change. -/
def unindent (w : Writer) (levels : Option Int) : Except LayoutError Writer :=
  if w.level - w.levelsMeant levels < 0 then
    .error (.indentBelowZero (w.levelsMeant levels) w.level)
  else .ok { w with level := (w.level - w.levelsMeant levels).toNat }

/-! ### Text -/

/-- Writes a text as it is. -/
def append (w : Writer) (text : List Char) : List Char × Writer :=
  let written := w.cursor.append text
  (written.1, { w with cursor := written.2 })

/-- Ends the line. A blank line inside a comment keeps the marker. -/
def newline (w : Writer) : List Char × Writer :=
  let marker := if w.comment && w.lineStart then w.indentation.text ++ ['/', '/'] else []
  let written := w.append (marker ++ ['\n'])
  (written.1, { written.2 with lineStart := true })

/-- Writes the margin, unless the line has text already. -/
def openLine (w : Writer) : List Char × Writer :=
  if w.lineStart then w.append w.margin.text else ([], w)

/-- Writes a run of text that has no newline. -/
def run (w : Writer) (text : List Char) : List Char × Writer :=
  if text.isEmpty then ([], w)
  else
    let opened := w.openLine
    let written :=
      opened.2.cursor.wrap w.style.lineWidth w.continuation (!w.comment) text
    (opened.1 ++ written.1, { opened.2 with cursor := written.2, lineStart := false })

/-- Ends the line and writes the next. -/
def nextLine (w : Writer) (line : List Char) : List Char × Writer :=
  let ended := w.newline
  let written := ended.2.run line
  (ended.1 ++ written.1, written.2)

/-- Writes a text, indenting every line it starts. -/
def emit (w : Writer) (text : List Char) : List Char × Writer :=
  match lines text with
  | [] => ([], w)
  | l :: ls =>
    let written := w.run l
    let others := writeAll nextLine written.2 ls
    (written.1 ++ others.1, others.2)

/-- Writes a comment line on a line of its own, even in the middle of one. -/
def commentLine (w : Writer) (line : String) : List Char × Writer :=
  let written := emit { w with lineStart := true, comment := true } line.toList
  let ended := emit written.2 ['\n']
  (written.1 ++ ended.1, { ended.2 with comment := false })

def emitComment (w : Writer) (lines : List String) : List Char × Writer :=
  writeAll commentLine w lines

/-! ### What text leaves as it is -/

/-- All that changes of indentation depend on. -/
def pace (w : Writer) : Nat × Nat := (w.level, w.style.indentSize)

/-- Changes that are refused alike, or lead to the same pace. -/
def ChangedAlike (x y : Except LayoutError Writer) : Prop :=
  (∃ e, x = .error e ∧ y = .error e) ∨
    ∃ v w : Writer, x = .ok v ∧ y = .ok w ∧ v.pace = w.pace

theorem indent_alike {v w : Writer} (h : v.pace = w.pace) (levels : Option Int) :
    ChangedAlike (v.indent levels) (w.indent levels) := by
  obtain ⟨hl, hs⟩ := Prod.mk.inj h
  unfold indent levelsMeant
  rw [hl, hs]
  split
  · exact .inl ⟨_, rfl, rfl⟩
  · exact .inr ⟨_, _, rfl, rfl, by simp [pace, hs]⟩

theorem unindent_alike {v w : Writer} (h : v.pace = w.pace) (levels : Option Int) :
    ChangedAlike (v.unindent levels) (w.unindent levels) := by
  obtain ⟨hl, hs⟩ := Prod.mk.inj h
  unfold unindent levelsMeant
  rw [hl, hs]
  split
  · exact .inl ⟨_, rfl, rfl⟩
  · exact .inr ⟨_, _, rfl, rfl, by simp [pace, hs]⟩

theorem pace_newline (w : Writer) : w.newline.2.pace = w.pace := rfl

theorem pace_openLine (w : Writer) : w.openLine.2.pace = w.pace := by
  unfold openLine
  split <;> rfl

theorem pace_run (w : Writer) (text : List Char) : (w.run text).2.pace = w.pace := by
  unfold run
  split
  · rfl
  · exact w.pace_openLine

theorem pace_nextLine (w : Writer) (line : List Char) : (w.nextLine line).2.pace = w.pace := by
  rw [nextLine, pace_run, pace_newline]

theorem pace_emit (w : Writer) (text : List Char) : (w.emit text).2.pace = w.pace := by
  unfold emit
  split
  · rfl
  · rw [writeAll_preserves pace pace_nextLine, pace_run]

theorem pace_commentLine (w : Writer) (line : String) : (w.commentLine line).2.pace = w.pace :=
  (pace_emit (emit { w with lineStart := true, comment := true } line.toList).2 ['\n']).trans
    (pace_emit { w with lineStart := true, comment := true } line.toList)

theorem pace_emitComment (w : Writer) (lines : List String) :
    (w.emitComment lines).2.pace = w.pace :=
  writeAll_preserves pace pace_commentLine w lines

theorem pace_ofStyle_flat (style : Style) : (ofStyle style.flat).pace = (ofStyle style).pace := rfl

end Writer

end ProtoSchema.Layout
