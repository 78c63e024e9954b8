import ProtoSchema.Proofs.Piece

/-!
The pieces that a writer sets.

Each operation of a writer is given the pieces it sets, recorded along its run. They depend on
neither the width nor the column, and the text of the operation is what becomes of them at the width
of the writer.
-/

namespace ProtoSchema.Layout

/-! ### Segments -/

namespace Scan

/-- All gaps read so far are made of spaces. -/
def Spaced (s : Scan) : Prop := ∀ t ∈ s.current :: s.done, ∀ c ∈ t.gap, c = ' '

lemma spaced_step {s : Scan} (h : s.Spaced) (q : Bool) (c : Char) : (s.step q c).Spaced := by
  obtain ⟨hg, hd⟩ := List.forall_mem_cons.1 h
  have ht : (s.take q c).Spaced := by
    refine List.forall_mem_cons.2 ⟨?_, done_take q s c ▸ hd⟩
    change ∀ d ∈ (s.take q c).gap.reverse, d = ' '
    rw [gap_take]
    exact hg
  unfold step
  split
  · exact List.forall_mem_cons.2 ⟨hg, hd⟩
  · split
    · unfold space
      split
      · refine List.forall_mem_cons.2 ⟨fun d hm => ?_, hd⟩
        rcases List.mem_cons.1 (List.mem_reverse.1 hm) with rfl | hm
        · rfl
        · exact hg d (List.mem_reverse.2 hm)
      · refine List.forall_mem_cons.2 ⟨fun d hm => ?_, h⟩
        simpa [current] using hm
    · exact ht

lemma spaced_run {s : Scan} (h : s.Spaced) (q : Bool) (text : List Char) : (s.run q text).Spaced :=
  run_preserves (P := Spaced) (fun _ h c _ => spaced_step h q c) h

end Scan

lemma gap_of_mem_segments {q : Bool} {text : List Char} {s : Segment} (h : s ∈ segments q text) :
    ∀ c ∈ s.gap, c = ' ' := by
  have hs : (Scan.run q {} text).Spaced :=
    Scan.spaced_run (by simp [Scan.Spaced, Scan.current]) q text
  exact hs s (List.mem_reverse.1 h)

lemma mem_of_mem_word {q : Bool} {text : List Char} {s : Segment} (h : s ∈ segments q text)
    {c : Char} (hc : c ∈ s.word) : c ∈ text := by
  rw [← flatMap_text_segments q text]
  exact List.mem_flatMap.2 ⟨s, h, List.mem_append_right _ hc⟩

/-- The gap is made of spaces, and the word stands on one line. -/
def Segment.Plain (s : Segment) : Prop := (∀ c ∈ s.gap, c = ' ') ∧ '\n' ∉ s.word

lemma plain_of_mem_segments {q : Bool} {text : List Char} (h : '\n' ∉ text) {s : Segment}
    (hs : s ∈ segments q text) : s.Plain :=
  ⟨gap_of_mem_segments hs, fun hc => h (mem_of_mem_word hs hc)⟩

lemma newline_not_mem_of_mem_lines {text l : List Char} (h : l ∈ lines text) : '\n' ∉ l := by
  induction text generalizing l with
  | nil =>
    rw [List.mem_singleton.1 h]
    simp
  | cons c cs ih =>
    by_cases hc : c = '\n'
    · rw [hc, lines_cons_newline] at h
      rcases List.mem_cons.1 h with rfl | h
      · simp
      · exact ih h
    · obtain ⟨k, ks, hk⟩ := List.exists_cons_of_ne_nil (lines_ne_nil cs)
      rw [lines_cons_char hc hk] at h
      rw [hk] at ih
      rcases List.mem_cons.1 h with rfl | h
      · have hn := ih List.mem_cons_self
        simp [Ne.symm hc, hn]
      · exact ih (List.mem_cons_of_mem k h)

/-! ### Plans -/

/-- The pieces of several elements that are written one after another. -/
def planAll {σ α : Type} (plan : σ → α → List Piece) (write : σ → α → List Char × σ) :
    σ → List α → List Piece
  | _, [] => []
  | s, a :: as => plan s a ++ planAll plan write (write s a).2 as

/-- What is true of the pieces of each element, in a state that each element keeps, is true of
all pieces. -/
lemma forall_mem_planAll {σ α : Type} {plan : σ → α → List Piece} {write : σ → α → List Char × σ}
    {P : σ → Prop} {Q : Piece → Prop} {as : List α}
    (h : ∀ s, P s → ∀ a ∈ as, (∀ p ∈ plan s a, Q p) ∧ P (write s a).2) {s : σ} (hs : P s) :
    (∀ p ∈ planAll plan write s as, Q p) ∧ P (writeAll write s as).2 := by
  induction as generalizing s with
  | nil => exact ⟨by simp [planAll], hs⟩
  | cons a as ih =>
    obtain ⟨hp, hw⟩ := h s hs a List.mem_cons_self
    obtain ⟨hps, hws⟩ := ih (fun t ht b hb => h t ht b (List.mem_cons_of_mem a hb)) hw
    rw [writeAll_cons]
    exact ⟨List.forall_mem_append.2 ⟨hp, hps⟩, hws⟩

namespace Cursor

/-- A segment with a word is set as the word behind its gap. -/
def placePlan (continuation : Margin) (c : Cursor) (s : Segment) : List Piece :=
  if s.word.isEmpty then [] else [.word (c.gapBefore s) continuation s.word]

def wrapPlan (width : Nat) (continuation : Margin) (quoteAware : Bool) (c : Cursor)
    (text : List Char) : List Piece :=
  planAll (placePlan continuation) (place width continuation) c (segments quoteAware text)

variable {width : Nat} {continuation : Margin}

lemma held_place (c : Cursor) (s : Segment) :
    (place width continuation c s).2.held = if s.word.isEmpty then c.gapBefore s else [] := by
  unfold place
  split
  · rfl
  · split <;> rfl

lemma text_place (c : Cursor) (s : Segment) :
    (place width continuation c s).1 = fill width c.column (c.placePlan continuation s) := by
  have hb : (c.fits width s || !c.canBreak continuation s) = true ↔
      c.column + (c.gapBefore s).length + s.word.length ≤ width ∨ c.gapBefore s = [] ∨
        c.column ≤ continuation.length := by
    simp [fits, canBreak]
  unfold place placePlan
  by_cases hw : s.word.isEmpty
  · rw [if_pos hw, if_pos hw]
    rfl
  · rw [if_neg hw, if_neg hw]
    simp only [fill, Piece.set, List.append_nil, hb]
    split <;> simp [append]

lemma text_placeAll (c : Cursor) (ss : List Segment) :
    (placeAll width continuation c ss).1 =
      fill width c.column (planAll (placePlan continuation) (place width continuation) c ss) := by
  induction ss generalizing c with
  | nil => rfl
  | cons s ss ih =>
    rw [placeAll, writeAll_cons, planAll, fill_append, ← text_place, ← column_place, ← ih]
    rfl

lemma spaces_gapBefore {c : Cursor} (hc : ∀ a ∈ c.held, a = ' ') {s : Segment}
    (hg : ∀ a ∈ s.gap, a = ' ') : ∀ a ∈ c.gapBefore s, a = ' ' :=
      List.forall_mem_append.2 ⟨hc, hg⟩

lemma spaces_held_place {c : Cursor} (hc : ∀ a ∈ c.held, a = ' ') {s : Segment}
    (hg : ∀ a ∈ s.gap, a = ' ') : ∀ a ∈ (place width continuation c s).2.held, a = ' ' := by
  rw [held_place]
  split
  · exact spaces_gapBefore hc hg
  · simp

lemma proper_placeAll {c : Cursor} (hc : ∀ a ∈ c.held, a = ' ') {ss : List Segment}
    (hs : ∀ s ∈ ss, s.Plain) :
    (∀ p ∈ planAll (placePlan continuation) (place width continuation) c ss,
        p.Proper continuation.unit) ∧
      ∀ a ∈ (placeAll width continuation c ss).2.held, a = ' ' := by
  refine forall_mem_planAll (P := fun c : Cursor => ∀ a ∈ c.held, a = ' ')
    (fun c hc s hm => ⟨?_, spaces_held_place hc (hs s hm).1⟩) hc
  unfold placePlan
  split
  · simp
  · exact List.forall_mem_singleton.2 ⟨spaces_gapBefore hc (hs s hm).1, (hs s hm).2, rfl⟩

lemma placeAll_alike (width width' : Nat) (continuation : Margin) {c d : Cursor}
    (h : c.held = d.held) (ss : List Segment) :
    planAll (placePlan continuation) (place width continuation) c ss =
        planAll (placePlan continuation) (place width' continuation) d ss ∧
      (placeAll width continuation c ss).2.held = (placeAll width' continuation d ss).2.held := by
  induction ss generalizing c d with
  | nil => exact ⟨rfl, h⟩
  | cons s ss ih =>
    have hb : c.gapBefore s = d.gapBefore s := by rw [gapBefore, gapBefore, h]
    have hh : (place width continuation c s).2.held = (place width' continuation d s).2.held := by
      rw [held_place, held_place, hb]
    obtain ⟨hp, hhs⟩ := ih hh
    simp only [placeAll, writeAll_cons, planAll]
    rw [hp, placePlan, placePlan, hb]
    exact ⟨rfl, hhs⟩

end Cursor

namespace Writer

/-- Writes a run on a line that is open. -/
def wrapLine (w : Writer) (text : List Char) : List Char × Writer :=
  let written := w.cursor.wrap w.style.lineWidth w.continuation (!w.comment) text
  (written.1, { w with cursor := written.2, lineStart := false })

def wrapLinePlan (w : Writer) (text : List Char) : List Piece :=
  w.cursor.wrapPlan w.style.lineWidth w.continuation (!w.comment) text

def newlinePlan (w : Writer) : List Piece := [.text w.newline.1]

def openLinePlan (w : Writer) : List Piece := [.text w.openLine.1]

def runPlan (w : Writer) (text : List Char) : List Piece :=
  if text.isEmpty then [] else w.openLinePlan ++ w.openLine.2.wrapLinePlan text

def nextLinePlan (w : Writer) (line : List Char) : List Piece :=
  w.newlinePlan ++ w.newline.2.runPlan line

def emitPlan (w : Writer) (text : List Char) : List Piece :=
  match lines text with
  | [] => []
  | l :: ls => w.runPlan l ++ planAll nextLinePlan nextLine (w.run l).2 ls

def commentLinePlan (w : Writer) (line : String) : List Piece :=
  let opened := { w with lineStart := true, comment := true }
  opened.emitPlan line.toList ++ (opened.emit line.toList).2.emitPlan ['\n']

def commentPlan (w : Writer) (lines : List String) : List Piece :=
  planAll commentLinePlan commentLine w lines

/-! ### What plans depend on -/

lemma continuation_unit (w : Writer) : w.continuation.unit = w.style.unit := by
  unfold continuation
  split <;> rfl

/-- Writers that differ in their widths and columns only. -/
structure Alike (v w : Writer) : Prop where
  unit : v.style.unit = w.style.unit
  indentSize : v.style.indentSize = w.style.indentSize
  level : v.level = w.level
  lineStart : v.lineStart = w.lineStart
  comment : v.comment = w.comment
  held : v.cursor.held = w.cursor.held

namespace Alike

variable {v w : Writer}

lemma indentation (h : v.Alike w) : v.indentation = w.indentation := by
  rw [Writer.indentation, Writer.indentation, h.unit, h.level]

lemma margin (h : v.Alike w) : v.margin = w.margin := by
  rw [Writer.margin, Writer.margin, h.indentation, h.comment]

lemma continuation (h : v.Alike w) : v.continuation = w.continuation := by
  rw [Writer.continuation, Writer.continuation, h.margin, h.comment, h.level, h.indentSize]

lemma append (h : v.Alike w) (text : List Char) :
    (v.append text).1 = (w.append text).1 ∧ (v.append text).2.Alike (w.append text).2 := by
  have ht : (v.append text).1 = v.cursor.held ++ text := rfl
  rw [ht, h.held]
  exact ⟨rfl, h.unit, h.indentSize, h.level, h.lineStart, h.comment, rfl⟩

lemma newline (h : v.Alike w) : v.newline.1 = w.newline.1 ∧ v.newline.2.Alike w.newline.2 := by
  have ha := h.append
    ((if w.comment && w.lineStart then w.indentation.text ++ ['/', '/'] else []) ++ ['\n'])
  unfold Writer.newline
  rw [h.comment, h.lineStart, h.indentation]
  exact ⟨ha.1, ha.2.unit, ha.2.indentSize, ha.2.level, rfl, ha.2.comment, ha.2.held⟩

lemma openLine (h : v.Alike w) :
    v.openLine.1 = w.openLine.1 ∧ v.openLine.2.Alike w.openLine.2 := by
  unfold Writer.openLine
  rw [h.lineStart, h.margin]
  split
  · exact h.append _
  · exact ⟨rfl, h⟩

lemma wrapLine (h : v.Alike w) (text : List Char) :
    (v.wrapLine text).2.Alike (w.wrapLine text).2 ∧ v.wrapLinePlan text = w.wrapLinePlan text := by
  have ha := Cursor.placeAll_alike v.style.lineWidth w.style.lineWidth w.continuation h.held
    (segments (!w.comment) text)
  unfold Writer.wrapLine Writer.wrapLinePlan Cursor.wrapPlan Cursor.wrap
  rw [h.continuation, h.comment]
  exact ⟨⟨h.unit, h.indentSize, h.level, rfl, rfl, ha.2⟩, ha.1⟩

end Alike

/-! ### Plans are followed -/

/-- What a writer writes is what becomes of the pieces, and the writer left stands behind it. -/
structure Sets (w : Writer) (r : List Char × Writer) (ps : List Piece) : Prop where
  text : r.1 = fill w.style.lineWidth w.cursor.column ps
  column : r.2.cursor.column = columnAfter w.cursor.column r.1
  style : r.2.style = w.style
  proper : (∀ c ∈ w.cursor.held, c = ' ') →
    (∀ p ∈ ps, p.Proper w.style.unit) ∧ ∀ c ∈ r.2.cursor.held, c = ' '

/-- An operation that follows a plan which depends on neither width nor column. -/
structure Planned (write : Writer → List Char × Writer) (plan : Writer → List Piece) :
    Prop where
  sets : ∀ w : Writer, w.Sets (write w) (plan w)
  alike : ∀ {v w : Writer}, v.Alike w → (write v).2.Alike (write w).2 ∧ plan v = plan w

lemma Sets.append {w : Writer} {r q : List Char × Writer} {ps qs : List Piece} (hr : w.Sets r ps)
    (hq : r.2.Sets q qs) : w.Sets (r.1 ++ q.1, q.2) (ps ++ qs) := by
  refine ⟨?_, ?_, hq.style.trans hr.style, fun hw => ?_⟩
  · rw [fill_append, ← hr.text, hq.text, hr.style, hr.column]
  · rw [hq.column, hr.column, columnAfter_append]
  · obtain ⟨hp, hh⟩ := hr.proper hw
    obtain ⟨hp', hh'⟩ := hq.proper hh
    rw [hr.style] at hp'
    exact ⟨List.forall_mem_append.2 ⟨hp, hp'⟩, hh'⟩

lemma Sets.verbatim {w : Writer} {r : List Char × Writer}
    (hc : r.2.cursor.column = columnAfter w.cursor.column r.1)
    (hs : r.2.style = w.style)
    (hh : (∀ c ∈ w.cursor.held, c = ' ') → ∀ c ∈ r.2.cursor.held, c = ' ') :
    w.Sets r [.text r.1] :=
  ⟨(List.append_nil _).symm, hc, hs, fun h => ⟨List.forall_mem_singleton.2 trivial, hh h⟩⟩

namespace Planned

lemma nothing : Planned (fun w => ([], w)) fun _ => [] :=
  ⟨fun _ => ⟨rfl, rfl, rfl, fun h => ⟨by simp, h⟩⟩, fun h => ⟨h, rfl⟩⟩

lemma append {f g : Writer → List Char × Writer} {p q : Writer → List Piece} (hf : Planned f p)
    (hg : Planned g q) :
    Planned (fun w => ((f w).1 ++ (g (f w).2).1, (g (f w).2).2)) fun w => p w ++ q (f w).2 := by
  refine ⟨fun w => (hf.sets w).append (hg.sets (f w).2), fun {v w} h => ?_⟩
  obtain ⟨ha, hp⟩ := hf.alike h
  obtain ⟨hb, hq⟩ := hg.alike ha
  exact ⟨hb, by rw [hp, hq]⟩

lemma writeAll {α : Type} {write : Writer → α → List Char × Writer} {plan : Writer → α → List Piece}
    {as : List α} (h : ∀ a ∈ as, Planned (write · a) (plan · a)) :
    Planned (Layout.writeAll write · as) (planAll plan write · as) := by
  induction as with
  | nil => exact nothing
  | cons a as ih =>
    simp only [writeAll_cons, planAll]
    exact (h a List.mem_cons_self).append (ih fun b hb => h b (List.mem_cons_of_mem a hb))

lemma newline : Planned Writer.newline newlinePlan := by
  refine ⟨fun w => .verbatim ?_ rfl fun _ => ?_, fun h => ⟨h.newline.2, ?_⟩⟩
  · exact Cursor.column_append _ _
  · simp [Writer.newline, Writer.append, Cursor.append]
  · rw [newlinePlan, newlinePlan, h.newline.1]

lemma openLine : Planned Writer.openLine openLinePlan := by
  refine ⟨fun w => ?_, fun h => ⟨h.openLine.2, ?_⟩⟩
  · unfold openLinePlan Writer.openLine
    split
    · exact .verbatim rfl rfl fun _ => by simp [Writer.append, Cursor.append]
    · exact .verbatim rfl rfl fun h => h
  · rw [openLinePlan, openLinePlan, h.openLine.1]

lemma wrapLine {text : List Char} (hn : '\n' ∉ text) :
    Planned (Writer.wrapLine · text) (wrapLinePlan · text) := by
  refine ⟨fun w => ⟨?_, ?_, rfl, fun hw => ?_⟩, fun h => h.wrapLine text⟩
  · exact Cursor.text_placeAll _ _
  · exact Cursor.column_placeAll _ _ _ _
  · rw [← w.continuation_unit]
    exact Cursor.proper_placeAll hw fun s hs => plain_of_mem_segments hn hs

lemma run {text : List Char} (hn : '\n' ∉ text) : Planned (Writer.run · text) (runPlan · text) := by
  have he : ∀ w : Writer, w.run text = if text.isEmpty then ([], w) else
      (w.openLine.1 ++ (w.openLine.2.wrapLine text).1, (w.openLine.2.wrapLine text).2) := by
    intro w
    unfold Writer.run Writer.openLine
    by_cases h : w.lineStart <;> simp only [h] <;> rfl
  simp only [he, runPlan]
  split
  · exact nothing
  · exact openLine.append (wrapLine hn)

lemma nextLine {line : List Char} (hn : '\n' ∉ line) :
    Planned (Writer.nextLine · line) (nextLinePlan · line) :=
  newline.append (run hn)

lemma emit (text : List Char) : Planned (Writer.emit · text) (emitPlan · text) := by
  have hn : ∀ l ∈ lines text, '\n' ∉ l := fun l => newline_not_mem_of_mem_lines
  unfold Writer.emit emitPlan
  cases h : lines text with
  | nil => exact nothing
  | cons l ls =>
    rw [h] at hn
    obtain ⟨hl, hls⟩ := List.forall_mem_cons.1 hn
    exact (run hl).append (writeAll fun k hk => nextLine (hls k hk))

lemma commentLine (line : String) :
    Planned (Writer.commentLine · line) (commentLinePlan · line) := by
  have h := (emit line.toList).append (emit ['\n'])
  constructor
  · intro w
    have hs := h.sets { w with lineStart := true, comment := true }
    exact ⟨hs.text, hs.column, hs.style, hs.proper⟩
  · intro v w hvw
    have ha : Alike { v with lineStart := true, comment := true }
        { w with lineStart := true, comment := true } :=
      ⟨hvw.unit, hvw.indentSize, hvw.level, rfl, rfl, hvw.held⟩
    obtain ⟨hb, hp⟩ := h.alike ha
    exact ⟨⟨hb.unit, hb.indentSize, hb.level, hb.lineStart, rfl, hb.held⟩, hp⟩

lemma emitComment (lines : List String) :
    Planned (Writer.emitComment · lines) (commentPlan · lines) :=
  writeAll fun line _ => commentLine line

end Planned

end Writer

end ProtoSchema.Layout
