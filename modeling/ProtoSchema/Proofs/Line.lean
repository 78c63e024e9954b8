import ProtoSchema.Proofs.Plan

/-!
Lines as a writer lays them out.

A line is laid out at a depth, as a comment or not, by one run of text after another. A writer that
stands at the start of a line writes a text line by line, and what it writes of a line depends on
the runs of that line alone.
-/

namespace ProtoSchema.Layout

/-! ### Texts and their lines -/

lemma lines_append_of_no_newline {x : List Char} (hx : '\n' ∉ x) {text l : List Char}
    {ls : List (List Char)} (h : lines text = l :: ls) : lines (x ++ text) = (x ++ l) :: ls := by
  induction x with
  | nil => exact h
  | cons c cs ih =>
    obtain ⟨hc, hcs⟩ := not_or.1 (mt List.mem_cons.2 hx)
    exact lines_cons_char (Ne.symm hc) (ih hcs)

lemma lines_of_no_newline {x : List Char} (hx : '\n' ∉ x) : lines x = [x] := by
  have h := lines_append_of_no_newline hx (rfl : lines [] = [[]])
  simpa using h

/-- Text behind a text goes on with its last line. -/
lemma lines_append {a l : List Char} {ls : List (List Char)} (h : lines a = ls ++ [l])
    (b : List Char) :
    lines (a ++ b) = ls ++ lines (l ++ b) := by
  induction a generalizing l ls with
  | nil =>
    cases ls with
    | nil =>
      obtain rfl : [] = l := (List.cons.inj h).1
      rfl
    | cons k ks => simp [lines] at h
  | cons c cs ih =>
    obtain ⟨k, ks, hk⟩ := List.exists_cons_of_ne_nil (lines_ne_nil cs)
    by_cases hc : c = '\n'
    · subst hc
      rw [lines_cons_newline] at h
      cases ls with
      | nil => simp [hk] at h
      | cons m ms =>
        obtain ⟨rfl, hms⟩ := List.cons.inj h
        rw [List.cons_append, lines_cons_newline, ih hms, List.cons_append]
    · rw [lines_cons_char hc hk] at h
      cases ls with
      | nil =>
        obtain ⟨rfl, rfl⟩ := List.cons.inj h
        obtain ⟨m, ms, hm⟩ := List.exists_cons_of_ne_nil (lines_ne_nil (k ++ b))
        have hi := @ih k [] hk
        rw [List.nil_append, hm] at hi
        rw [List.cons_append, lines_cons_char hc hi, List.nil_append, List.cons_append,
          lines_cons_char hc hm]
      | cons m ms =>
        obtain ⟨rfl, hms⟩ := List.cons.inj h
        have hi := @ih l (k :: ms) (by rw [hk, hms]; rfl)
        rw [List.cons_append, lines_cons_char hc hi]
        rfl

lemma exists_last_line (text : List Char) : ∃ ls l, lines text = ls ++ [l] ∧ '\n' ∉ l := by
  have h := List.dropLast_concat_getLast (lines_ne_nil text)
  exact ⟨_, _, h.symm, newline_not_mem_of_mem_lines (List.getLast_mem (lines_ne_nil text))⟩

lemma lines_append_newline (a b : List Char) : lines (a ++ '\n' :: b) = lines a ++ lines b := by
  obtain ⟨ls, l, h, hl⟩ := exists_last_line a
  rw [lines_append h, lines_append_of_no_newline hl (lines_cons_newline b), h]
  simp

/-! ### From the start of a line -/

namespace Writer

/-- A writer at the start of a line. -/
def fresh (style : Style) (level : Nat) (comment : Bool) : Writer := { style, level, comment }

/-- The writer behind some runs that start a line. -/
def started (style : Style) (level : Nat) (comment : Bool) (runs : List (List Char)) :
    List Char × Writer :=
  writeAll run (fresh style level comment) runs

/-- A line of some runs, with its end. -/
def lineText (style : Style) (level : Nat) (comment : Bool) (runs : List (List Char)) : List Char :=
  let s := started style level comment runs
  s.1 ++ s.2.newline.1

/-- All but what a run changes. -/
def frame (w : Writer) : Style × Nat × Bool := (w.style, w.level, w.comment)

lemma frame_run (w : Writer) (text : List Char) : (w.run text).2.frame = w.frame := by
  unfold run openLine
  by_cases ht : text.isEmpty <;> by_cases hs : w.lineStart <;> simp only [ht, hs] <;> rfl

lemma frame_nextLine (w : Writer) (line : List Char) : (w.nextLine line).2.frame = w.frame := by
  rw [nextLine, frame_run]
  rfl

lemma frame_emit (w : Writer) (text : List Char) : (w.emit text).2.frame = w.frame := by
  unfold emit
  split
  · rfl
  · rw [writeAll_preserves frame frame_nextLine, frame_run]

lemma newline_eq_fresh (w : Writer) : w.newline.2 = fresh w.style w.level w.comment := by
  have hc : columnAfter w.cursor.column (w.cursor.held ++ ((if w.comment && w.lineStart then
      w.indentation.text ++ ['/', '/'] else []) ++ ['\n'])) = 0 := by
    rw [columnAfter_append, columnAfter_append, columnAfter_newline]
  simp only [newline, append, Cursor.append, hc]
  rfl

lemma emit_append_newline (w : Writer) (body : List Char) : w.emit (body ++ ['\n']) =
    ((w.emit body).1 ++ (w.emit body).2.newline.1, (w.emit body).2.newline.2) := by
  obtain ⟨l, ls, hl⟩ := List.exists_cons_of_ne_nil (lines_ne_nil body)
  have he : lines (body ++ ['\n']) = l :: (ls ++ [[]]) := by
    rw [lines_append_newline, hl]
    rfl
  rw [emit, emit, he, hl]
  simp [writeAll_append, writeAll_cons, nextLine, run]

/-- A text that ends with a newline leaves the writer at the start of a line. -/
lemma emit_ended_eq_fresh (w : Writer) (body : List Char) :
    (w.emit (body ++ ['\n'])).2 = fresh w.style w.level w.comment := by
  obtain ⟨hs, hr⟩ := Prod.mk.inj (w.frame_emit body)
  obtain ⟨hl, hc⟩ := Prod.mk.inj hr
  rw [emit_append_newline, newline_eq_fresh, hs, hl, hc]

variable (style : Style) (level : Nat) (comment : Bool)

lemma newline_started (runs : List (List Char)) :
    (started style level comment runs).2.newline.2 = fresh style level comment := by
  have h := writeAll_preserves frame frame_run (fresh style level comment) runs
  obtain ⟨hs, hr⟩ := Prod.mk.inj h
  obtain ⟨hl, hc⟩ := Prod.mk.inj hr
  rw [newline_eq_fresh]
  change fresh (writeAll run _ runs).2.style (writeAll run _ runs).2.level
    (writeAll run _ runs).2.comment = _
  rw [hs, hl, hc]
  rfl

lemma started_append (a b : List (List Char)) :
    started style level comment (a ++ b) =
      ((started style level comment a).1 ++ (writeAll run (started style level comment a).2 b).1,
        (writeAll run (started style level comment a).2 b).2) :=
  writeAll_append run _ a b

lemma started_singleton (r : List Char) :
    started style level comment [r] = (fresh style level comment).run r := by
  rw [started, writeAll_cons, writeAll_nil, List.append_nil]

lemma started_of_empty {runs : List (List Char)} (h : runs.flatten = []) :
    started style level comment runs = ([], fresh style level comment) := by
  induction runs with
  | nil => rfl
  | cons r rs ih =>
    rw [List.flatten_cons, List.append_eq_nil_iff] at h
    obtain ⟨rfl, hrs⟩ := h
    have hr : (fresh style level comment).run [] = ([], fresh style level comment) := rfl
    have hi : writeAll run (fresh style level comment) rs = _ := ih hrs
    rw [started, writeAll_cons, hr, hi]
    rfl

end Writer

/-! ### Texts that end lines -/

open Writer

/-- Behind the runs `before` of a line, the lines of `ended` are written to their ends, and the runs
`after` of another line are. -/
structure Advances (write : Writer → List Char × Writer) (before : List (List Char))
    (ended : List (List (List Char))) (after : List (List Char)) : Prop where
  text : ∀ style level comment,
    (started style level comment before).1 ++ (write (started style level comment before).2).1 =
      ended.flatMap (lineText style level comment) ++ (started style level comment after).1
  writer : ∀ style level comment,
    (write (started style level comment before).2).2 = (started style level comment after).2

/-- The lines that texts end, and what they leave of the line they end in. -/
structure Ends (before : List (List Char)) (texts : List (List Char))
    (ended : List (List (List Char))) (after : List (List Char)) : Prop where
  lines : lines (before.flatten ++ texts.flatten) = ended.map List.flatten ++ [after.flatten]
  advances : Advances (writeAll emit · texts) before ended after

variable {before after later : List (List Char)} {texts more : List (List Char)}
  {ended further : List (List (List Char))}

lemma Advances.nextLines {ls : List (List Char)} (hls : ∀ k ∈ ls, '\n' ∉ k)
    (hb : '\n' ∉ before.flatten) :
    ∃ (ended : List (List (List Char))) (after : List (List Char)), '\n' ∉ after.flatten ∧
      before.flatten :: ls = ended.map List.flatten ++ [after.flatten] ∧
      Advances (writeAll nextLine · ls) before ended after := by
  induction ls generalizing before with
  | nil =>
    refine ⟨[], before, hb, rfl, fun style level comment => ?_, fun _ _ _ => rfl⟩
    simp
  | cons l ls ih =>
    obtain ⟨hl, hks⟩ := List.forall_mem_cons.1 hls
    have hb' : '\n' ∉ [l].flatten := by simpa using hl
    obtain ⟨ended, after, ha, hp, hw⟩ := ih hks hb'
    have he : ∀ style level comment, (started style level comment before).2.nextLine l =
        ((started style level comment before).2.newline.1 ++ (started style level comment [l]).1,
          (started style level comment [l]).2) := by
      intro style level comment
      rw [nextLine, newline_started, started_singleton]
    refine ⟨before :: ended, after, ha, ?_, fun style level comment => ?_,
      fun style level comment => ?_⟩
    · rw [List.map_cons, List.cons_append, ← hp, List.flatten_singleton]
    · have ht := hw.text style level comment
      rw [writeAll_cons, he, List.flatMap_cons, lineText, List.append_assoc, List.append_assoc,
        List.append_assoc, ht]
    · have hn := hw.writer style level comment
      rw [writeAll_cons, he, hn]

namespace Ends

lemma nil (h : '\n' ∉ before.flatten) : Ends before [] [] before := by
  refine ⟨?_, fun _ _ _ => ?_, fun _ _ _ => rfl⟩
  · rw [List.flatten_nil, List.append_nil, lines_of_no_newline h]
    rfl
  · simp

lemma append (h : Ends before texts ended after) (hm : Ends after more further later) :
    Ends before (texts ++ more) (ended ++ further) later := by
  refine ⟨?_, fun style level comment => ?_, fun style level comment => ?_⟩
  · rw [List.flatten_append, ← List.append_assoc, lines_append h.lines, hm.lines, List.map_append,
      List.append_assoc]
  · have ht := h.advances.text style level comment
    have hw := h.advances.writer style level comment
    have hl := hm.advances.text style level comment
    simp only [writeAll_append, hw]
    rw [← List.append_assoc, ht, List.append_assoc, hl, List.flatMap_append, List.append_assoc]
  · have hw := h.advances.writer style level comment
    simp only [writeAll_append, hw]
    exact hm.advances.writer style level comment

lemma single (hb : '\n' ∉ before.flatten) (text : List Char) :
    ∃ ended after, '\n' ∉ after.flatten ∧ Ends before [text] ended after := by
  obtain ⟨l, ls, h⟩ := List.exists_cons_of_ne_nil (lines_ne_nil text)
  have hn : ∀ k ∈ l :: ls, '\n' ∉ k := fun k hk => newline_not_mem_of_mem_lines (h ▸ hk)
  obtain ⟨hl, hls⟩ := List.forall_mem_cons.1 hn
  have hbl : '\n' ∉ (before ++ [l]).flatten := by simp [hb, hl]
  obtain ⟨ended, after, ha, hp, hw⟩ := Advances.nextLines hls hbl
  have hs : ∀ style level comment, started style level comment (before ++ [l]) =
      ((started style level comment before).1 ++ ((started style level comment before).2.run l).1,
        ((started style level comment before).2.run l).2) := by
    intro style level comment
    rw [started_append, writeAll_cons, writeAll_nil, List.append_nil]
  have he : ∀ w : Writer, writeAll emit w [text] =
      ((w.run l).1 ++ (writeAll nextLine (w.run l).2 ls).1,
        (writeAll nextLine (w.run l).2 ls).2) := by
    intro w
    rw [writeAll_cons, writeAll_nil, List.append_nil, emit, h]
  refine ⟨ended, after, ha, ?_, fun style level comment => ?_, fun style level comment => ?_⟩
  · rw [← hp, List.flatten_singleton, lines_append_of_no_newline hb h, List.flatten_append,
      List.flatten_singleton]
  · have ht := hw.text style level comment
    rw [hs] at ht
    rw [he, ← List.append_assoc, ht]
  · have hr := hw.writer style level comment
    rw [hs] at hr
    rw [he, hr]

lemma exist (hb : '\n' ∉ before.flatten) (texts : List (List Char)) :
    ∃ ended after, '\n' ∉ after.flatten ∧ Ends before texts ended after := by
  induction texts generalizing before with
  | nil => exact ⟨[], before, hb, .nil hb⟩
  | cons text texts ih =>
    obtain ⟨ended, mid, hm, he⟩ := single hb text
    obtain ⟨further, after, ha, hf⟩ := ih hm
    exact ⟨ended ++ further, after, ha, he.append hf⟩

end Ends

/-- **Lines of a text**: texts that end with a newline are written line by line from the start of a
line, up to the start of the line below. -/
theorem exists_lines {texts : List (List Char)} {body : List Char}
    (h : texts.flatten = body ++ ['\n']) :
    ∃ ended : List (List (List Char)), ended.map List.flatten = lines body ∧
      ∀ style level comment, writeAll emit (fresh style level comment) texts =
        (ended.flatMap (lineText style level comment), fresh style level comment) := by
  have hn : '\n' ∉ ([] : List (List Char)).flatten := List.not_mem_nil
  obtain ⟨ended, after, -, he⟩ := Ends.exist hn texts
  have hl := he.lines
  rw [List.flatten_nil, List.nil_append, h, lines_append_newline] at hl
  obtain ⟨hb, ha⟩ := List.append_inj' hl rfl
  have ha' : after.flatten = [] := (List.cons.inj ha).1.symm
  refine ⟨ended, hb.symm, fun style level comment => ?_⟩
  have ht := he.advances.text style level comment
  have hw := he.advances.writer style level comment
  rw [started_of_empty _ _ _ ha'] at ht hw
  rw [List.append_nil] at ht
  exact Prod.ext ht hw

/-! ### Behind the margin -/

namespace Writer

/-- Writes segments on a line that is open. -/
def placed (w : Writer) (ss : List Segment) : List Char × Writer :=
  let p := w.cursor.placeAll w.style.lineWidth w.continuation ss
  (p.1, { w with cursor := p.2 })

lemma placed_append (w : Writer) (ss ts : List Segment) :
    w.placed (ss ++ ts) =
      ((w.placed ss).1 ++ ((w.placed ss).2.placed ts).1, ((w.placed ss).2.placed ts).2) := by
  simp only [placed, Cursor.placeAll, writeAll_append]
  rfl

lemma placed_segments_nil (w : Writer) (q : Bool) : w.placed (segments q []) = ([], w) := by
  obtain ⟨style, ⟨column, held⟩, level, lineStart, comment⟩ := w
  have hs : segments q [] = [⟨[], []⟩] := rfl
  simp [placed, hs, Cursor.placeAll, writeAll_cons, Cursor.place, Cursor.gapBefore]

lemma run_of_open {w : Writer} (h : w.lineStart = false) (text : List Char) :
    w.run text = w.placed (segments (!w.comment) text) := by
  by_cases ht : text = []
  · rw [ht, placed_segments_nil]
    rfl
  · obtain ⟨style, cursor, level, lineStart, comment⟩ := w
    obtain rfl : lineStart = false := h
    simp [run, ht, openLine, placed, Cursor.wrap]

lemma runs_of_open {w : Writer} (h : w.lineStart = false) (runs : List (List Char)) :
    writeAll run w runs = w.placed (runs.flatMap (segments (!w.comment))) := by
  induction runs generalizing w with
  | nil => rfl
  | cons r rs ih =>
    have hi := @ih (w.placed (segments (!w.comment) r)).2 h
    rw [writeAll_cons, run_of_open h, hi, List.flatMap_cons, placed_append]
    rfl

/-- The writer behind the margin of a line. -/
def opened (style : Style) (level : Nat) (comment : Bool) : Writer :=
  { (fresh style level comment).openLine.2 with lineStart := false }

lemma started_of_text {runs : List (List Char)} (he : runs.flatten ≠ []) (style : Style)
    (level : Nat) (comment : Bool) : started style level comment runs =
      ((fresh style level comment).margin.text ++
        ((opened style level comment).placed (runs.flatMap (segments (!comment)))).1,
        ((opened style level comment).placed (runs.flatMap (segments (!comment)))).2) := by
  induction runs with
  | nil => exact absurd rfl he
  | cons r rs ih =>
    by_cases hr : r = []
    · have hrs : rs.flatten ≠ [] := by simpa [hr] using he
      have hf : (fresh style level comment).run [] = ([], fresh style level comment) := rfl
      have hi := ih hrs
      rw [started] at hi
      rw [started, writeAll_cons, List.flatMap_cons, placed_append, hr, placed_segments_nil, hf, hi]
      rfl
    · have hf : (fresh style level comment).run r =
          ((fresh style level comment).margin.text ++
            ((opened style level comment).placed (segments (!comment) r)).1,
            ((opened style level comment).placed (segments (!comment) r)).2) := by
        have hn : ¬ r.isEmpty = true := by simpa using hr
        rw [run, if_neg hn]
        rfl
      have ho : ((opened style level comment).placed (segments (!comment) r)).2.lineStart =
          false := rfl
      rw [started, writeAll_cons, hf, runs_of_open ho, List.flatMap_cons, placed_append,
        List.append_assoc]
      rfl

end Writer

lemma lineText_of_text {runs : List (List Char)} (he : runs.flatten ≠ []) (style : Style)
    (level : Nat) (comment : Bool) : lineText style level comment runs =
      (started style level comment runs).1 ++ (started style level comment runs).2.cursor.held ++
        ['\n'] := by
  have hl : (started style level comment runs).2.lineStart = false := by
    rw [started_of_text he]
    rfl
  have hw : (started style level comment runs).2.newline.1 =
      (started style level comment runs).2.cursor.held ++ ['\n'] := by
    simp [newline, hl, append, Cursor.append]
  rw [lineText, hw, List.append_assoc]

lemma plain_of_mem_runs {runs : List (List Char)} (hn : '\n' ∉ runs.flatten) (comment : Bool) :
    ∀ s ∈ runs.flatMap (segments (!comment)), s.Plain := by
  intro s hs
  obtain ⟨r, hr, hs⟩ := List.mem_flatMap.1 hs
  exact plain_of_mem_segments (fun hm => hn (List.mem_flatten_of_mem hr hm)) hs

lemma flatMap_text_runs (runs : List (List Char)) (comment : Bool) :
    (runs.flatMap (segments (!comment))).flatMap Segment.text = runs.flatten := by
  rw [List.flatMap_assoc, List.flatten_eq_flatMap]
  exact congrArg (runs.flatMap ·) (funext fun r => flatMap_text_segments _ r)

/-! ### Lines with room -/

lemma copies_add (m n : Nat) (text : List Char) :
    copies (m + n) text = copies m text ++ copies n text := by
  simp only [copies_eq, ← List.replicate_append_replicate, List.flatten_append]

lemma copies_succ (n : Nat) (text : List Char) : copies (n + 1) text = text ++ copies n text := by
  simp only [copies_eq, List.replicate_succ, List.flatten_cons]

lemma copies_copies (m n : Nat) (text : List Char) :
    copies m (copies n text) = copies (m * n) text := by
  induction m with
  | zero => simp [copies_eq]
  | succ m ih =>
    rw [copies_succ, ih, Nat.succ_mul, Nat.add_comm, copies_add]

lemma fits_of_length_le {width column : Nat} {text : List Char} (h : column + text.length ≤ width) :
    Fits width column text := by
  induction text generalizing column with
  | nil => exact h
  | cons c cs ih =>
    rw [List.length_cons] at h
    refine ⟨by omega, ih ?_⟩
    by_cases hc : c = '\n'
    · rw [hc, columnAfter_newline]
      omega
    · rw [columnAfter_char hc]
      omega

namespace Cursor

lemma unbroken_placeAll (width : Nat) (continuation : Margin) (c : Cursor) (ss : List Segment) :
    unbroken (planAll (placePlan continuation) (place width continuation) c ss) ++
        (placeAll width continuation c ss).2.held = c.held ++ ss.flatMap Segment.text := by
  induction ss generalizing c with
  | nil => simp [planAll, unbroken, placeAll]
  | cons s ss ih =>
    have hi := ih (place width continuation c s).2
    have hs : unbroken (c.placePlan continuation s) ++ (place width continuation c s).2.held =
        c.held ++ s.text := by
      rw [held_place, placePlan]
      by_cases hw : s.word = []
      · simp [hw, unbroken, gapBefore, Segment.text]
      · simp [hw, unbroken, Piece.kept, gapBefore, Segment.text]
    rw [placeAll] at hi
    rw [placeAll, writeAll_cons, planAll, unbroken_append, List.append_assoc, hi,
      ← List.append_assoc, hs, List.flatMap_cons, List.append_assoc]

/-- Segments that have room keep all their gaps. -/
lemma placeAll_of_room {c : Cursor} {ss : List Segment} (hc : ∀ a ∈ c.held, a = ' ')
    (hs : ∀ s ∈ ss, s.Plain) {width : Nat}
    (h : c.column + (c.held ++ ss.flatMap Segment.text).length ≤ width) (continuation : Margin) :
    (placeAll width continuation c ss).1 ++ (placeAll width continuation c ss).2.held =
      c.held ++ ss.flatMap Segment.text := by
  have hu := unbroken_placeAll width continuation c ss
  have hf : Fits width c.column
      (unbroken (planAll (placePlan continuation) (place width continuation) c ss)) := by
    refine fits_of_length_le ?_
    rw [← hu, List.length_append] at h
    omega
  rw [text_placeAll, fill_of_fits (proper_placeAll hc hs).1 hf, hu]

end Cursor

/-- A line that has room is its margin and its text. -/
lemma lineText_of_room {runs : List (List Char)} (hn : '\n' ∉ runs.flatten) (he : runs.flatten ≠ [])
    {style : Style} {level : Nat} {comment : Bool}
    (h : ((fresh style level comment).margin.text ++ runs.flatten).length ≤ style.lineWidth) :
    lineText style level comment runs =
      (fresh style level comment).margin.text ++ runs.flatten ++ ['\n'] := by
  have hc : (opened style level comment).cursor.column ≤
      (fresh style level comment).margin.text.length :=
    (fits_of_length_le (Nat.le_of_eq (Nat.zero_add _))).end
  have hh : (opened style level comment).cursor.held = [] := rfl
  have hr : (opened style level comment).cursor.column +
      ((opened style level comment).cursor.held ++
      (runs.flatMap (segments (!comment))).flatMap Segment.text).length ≤ style.lineWidth := by
    rw [hh, flatMap_text_runs, List.nil_append]
    rw [List.length_append] at h
    omega
  have hp := Cursor.placeAll_of_room (hh ▸ fun a ha => absurd ha List.not_mem_nil)
    (plain_of_mem_runs hn comment) hr (opened style level comment).continuation
  rw [hh, flatMap_text_runs, List.nil_append] at hp
  rw [lineText_of_text he, started_of_text he,
    List.append_assoc (fresh style level comment).margin.text]
  exact congrArg (fun text => (fresh style level comment).margin.text ++ text ++ ['\n']) hp

/-- A line on its own: the indent steps in front of it, whether it is a comment, and the runs
of its text. -/
structure Line where
  depth : Nat := 0
  comment : Bool := false
  runs : List (List Char) := []

namespace Line

/-- The line with its end, as it is written where the indentation starts at a level. -/
def write (style : Style) (level : Nat) (l : Line) : List Char :=
  lineText style (level + l.depth * style.indentSize) l.comment l.runs

/-- What the line says, behind its indentation. -/
def content (l : Line) : List Char :=
  if l.comment then if l.runs.flatten = [] then ['/', '/'] else ['/', '/', ' '] ++ l.runs.flatten
  else l.runs.flatten

/-- The unbroken line, with `step` for each indent step in front of it unless it is empty. -/
def plain (step : List Char) (l : Line) : List Char :=
  if l.content = [] then [] else copies l.depth step ++ l.content

/-- The line one indent step further in. -/
def deeper (l : Line) : Line := { l with depth := l.depth + 1 }

lemma lineText_of_empty {runs : List (List Char)} (h : runs.flatten = []) (style : Style)
    (level : Nat) (comment : Bool) : lineText style level comment runs =
      (if comment then copies level style.unit ++ ['/', '/'] else []) ++ ['\n'] := by
  rw [lineText, started_of_empty _ _ _ h]
  cases comment
  · rfl
  · change [] ++ ([] ++ ((fresh style level true).indentation.text ++ ['/', '/'] ++ ['\n'])) = _
    simp [indentation, fresh, Margin.text]

/-- A line that has room is written as it is. -/
theorem write_of_room {style : Style} {l : Line} (hn : '\n' ∉ l.runs.flatten)
    (h : (l.plain (copies style.indentSize style.unit)).length ≤ style.lineWidth) :
    l.write style 0 = l.plain (copies style.indentSize style.unit) ++ ['\n'] := by
  rw [write, plain, copies_copies, Nat.zero_add]
  rw [plain, copies_copies] at h
  by_cases he : l.runs.flatten = []
  · rw [lineText_of_empty he, content]
    cases l.comment <;> simp [he]
  · have hc : l.content = (if l.comment then ['/', '/', ' '] else []) ++ l.runs.flatten := by
      rw [content]
      cases l.comment <;> simp [he]
    have hc' : l.content ≠ [] := by simp [hc, he]
    rw [if_neg hc'] at h ⊢
    have hm : (fresh style (l.depth * style.indentSize) l.comment).margin.text ++ l.runs.flatten =
        copies (l.depth * style.indentSize) style.unit ++ l.content := by
      rw [hc, ← List.append_assoc]
      rfl
    rw [← hm] at h ⊢
    exact lineText_of_room hn he h

end Line

end ProtoSchema.Layout
