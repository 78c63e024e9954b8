import ProtoSchema.Proofs.Document

/-!
Indentation shifts the text.

A writer that starts further in, with as much more room in its lines, breaks every line where the
other writer does. So a declaration inside of another is its own text, indented.
-/

namespace ProtoSchema

open Layout Print

namespace Layout

/-! ### Indented texts -/

/-- The text with a margin in front of each line that is not empty. -/
def indentText (margin text : List Char) : List Char :=
  List.intercalate ['\n'] ((lines text).map (indentLine margin))

lemma intercalate_append {between : List Char} {as bs : List (List Char)} (ha : as ≠ [])
    (hb : bs ≠ []) :
    between.intercalate (as ++ bs) =
      between.intercalate as ++ (between ++ between.intercalate bs) := by
  induction as with
  | nil => exact absurd rfl ha
  | cons a as ih =>
    by_cases h : as = []
    · subst h
      rw [List.cons_append, List.nil_append, List.intercalate_cons_of_ne_nil hb,
        List.intercalate_singleton, List.append_assoc]
    · have hab : as ++ bs ≠ [] := by simp [h]
      rw [List.cons_append, List.intercalate_cons_of_ne_nil hab,
        List.intercalate_cons_of_ne_nil h, ih h]
      simp

lemma map_indentLine_ne_nil (margin text : List Char) :
    (lines text).map (indentLine margin) ≠ [] := by
  simpa using lines_ne_nil text

lemma indentText_append_newline (margin a b : List Char) :
    indentText margin (a ++ '\n' :: b) = indentText margin a ++ '\n' :: indentText margin b := by
  rw [indentText, lines_append_newline, List.map_append,
    intercalate_append (map_indentLine_ne_nil margin a) (map_indentLine_ne_nil margin b)]
  rfl

lemma indentText_of_no_newline (margin : List Char) {l : List Char} (h : '\n' ∉ l) :
    indentText margin l = indentLine margin l := by
  rw [indentText, lines_of_no_newline h, List.map_singleton, List.intercalate_singleton]

/-- The last line of the text is not empty. -/
def Started (text : List Char) : Prop := ∃ ls l, lines text = ls ++ [l] ∧ l ≠ []

/-- Text that goes on with a line needs no margin. -/
lemma Started.indentText_append {text b : List Char} (h : Started text) (hb : '\n' ∉ b)
    (margin : List Char) : indentText margin (text ++ b) = indentText margin text ++ b := by
  obtain ⟨ls, l, hls, hl⟩ := h
  have hn : '\n' ∉ l :=
    newline_not_mem_of_mem_lines (hls ▸ List.mem_append_right _ List.mem_cons_self)
  have hlb : '\n' ∉ l ++ b := by simp [hn, hb]
  have hi : indentLine margin (l ++ b) = indentLine margin l ++ b := by simp [indentLine, hl]
  rw [indentText, indentText, lines_append hls, lines_of_no_newline hlb, hls, List.map_append,
    List.map_append, List.map_singleton, List.map_singleton, hi]
  by_cases he : ls = []
  · subst he
    simp
  · have hm : ls.map (indentLine margin) ≠ [] := by simpa using he
    rw [intercalate_append hm (List.cons_ne_nil _ _), intercalate_append hm (List.cons_ne_nil _ _),
      List.intercalate_singleton, List.intercalate_singleton]
    simp

lemma started_of_column {text : List Char} (h : 0 < columnAfter 0 text) : Started text := by
  obtain rfl | ⟨front, c, rfl⟩ := text.eq_nil_or_concat'
  · exact absurd h (Nat.lt_irrefl 0)
  · have hc : c ≠ '\n' := by
      rintro rfl
      rw [columnAfter_append, columnAfter_newline] at h
      exact absurd h (Nat.lt_irrefl 0)
    obtain ⟨ls, l, hl, hn⟩ := exists_last_line front
    have hlc : '\n' ∉ l ++ [c] := by simp [hn, Ne.symm hc]
    exact ⟨ls, l ++ [c], by rw [lines_append hl, lines_of_no_newline hlc], by simp⟩

/-- The other text is the text indented, where its last line goes on. -/
def Behind (margin text other : List Char) : Prop :=
  ∀ b, '\n' ∉ b → b ≠ [] → indentText margin (text ++ b) = other ++ b

namespace Behind

variable {margin text other b : List Char}

lemma nil (margin : List Char) : Behind margin [] margin := by
  intro b hb hn
  rw [List.nil_append, indentText_of_no_newline margin hb, indentLine, if_neg hn]

lemma append (h : Behind margin text other) (hb : '\n' ∉ b) :
    Behind margin (text ++ b) (other ++ b) := by
  intro d hd hn
  have hbd : '\n' ∉ b ++ d := by simp [hb, hd]
  rw [List.append_assoc, h (b ++ d) hbd (by simp [hn]), List.append_assoc]

lemma indentText_eq (h : Behind margin text other) (hs : Started text) :
    indentText margin text = other := by
  have hx := h ['x'] (by decide) (by decide)
  rw [hs.indentText_append (by decide)] at hx
  exact List.append_cancel_right hx

lemma newline (h : Behind margin text other) (hs : Started text) :
    Behind margin (text ++ ['\n']) (other ++ '\n' :: margin) := by
  intro d hd hn
  rw [List.append_assoc, List.cons_append, List.nil_append, indentText_append_newline,
    h.indentText_eq hs, indentText_of_no_newline margin hd, indentLine, if_neg hn]
  simp

end Behind

/-! ### Two writers of a line -/

namespace Cursor

/-- Two cursors on a line, the other one further in, and what was written to get there. -/
structure Tandem (margin text other : List Char) (c d : Cursor) : Prop where
  behind : Behind margin text other
  column : c.column = columnAfter 0 text
  shifted : d.column = c.column + margin.length
  held : d.held = c.held
  spaces : ∀ a ∈ c.held, a = ' '

lemma columnAfter_newline_cons {b : List Char} (h : '\n' ∉ b) (column : Nat) :
    columnAfter column ('\n' :: b) = b.length := by
  rw [columnAfter_cons, columnAfter_newline, columnAfter_of_no_newline h, Nat.zero_add]

namespace Tandem

variable {margin text other : List Char} {c d : Cursor} {near far : Margin} {width : Nat}

/-- Both cursors break in front of the same words. -/
lemma breaks_alike (h : Tandem margin text other c d) (hf : far.text = margin ++ near.text)
    (s : Segment) :
    (d.fits (width + margin.length) s || !d.canBreak far s) =
      (c.fits width s || !c.canBreak near s) := by
  have hg : d.gapBefore s = c.gapBefore s := by rw [gapBefore, gapBefore, h.held]
  have hl : far.length = margin.length + near.length := by
    rw [← Margin.length_text, hf, List.length_append, Margin.length_text]
  have hb : d.canBreak far s = c.canBreak near s := by
    rw [canBreak, canBreak, hg, hl, h.shifted]
    congr 1
    exact decide_eq_decide.2 (by omega)
  have hw : d.fits (width + margin.length) s = c.fits width s := by
    rw [fits, fits, hg, h.shifted]
    exact decide_eq_decide.2 (by omega)
  rw [hb, hw]

lemma append (h : Tandem margin text other c d) {b : List Char} (hb : '\n' ∉ b) :
    Tandem margin (text ++ b) (other ++ b) (Cursor.append { c with held := [] } b).2
      (Cursor.append { d with held := [] } b).2 := by
  refine ⟨h.behind.append hb, ?_, ?_, rfl, by simp [Cursor.append]⟩
  · rw [column_append, columnAfter_append, ← h.column]
    rfl
  · have hs := h.shifted
    simp only [Cursor.append, List.nil_append, columnAfter_of_no_newline hb]
    omega

lemma newline (h : Tandem margin text other c d) (hm : '\n' ∉ margin) (hc : 0 < c.column)
    {b : List Char} (hb : '\n' ∉ b) :
    Tandem margin (text ++ '\n' :: b) (other ++ '\n' :: (margin ++ b))
      (Cursor.append { c with held := [] } ('\n' :: b)).2
      (Cursor.append { d with held := [] } ('\n' :: (margin ++ b))).2 := by
  have hs : Started text := started_of_column (h.column ▸ hc)
  have hmb : '\n' ∉ margin ++ b := by simp [hm, hb]
  have hx := (h.behind.newline hs).append hb
  rw [List.append_assoc, List.append_assoc, List.cons_append, List.nil_append,
    List.cons_append] at hx
  refine ⟨hx, ?_, ?_, rfl, by simp [Cursor.append]⟩
  · rw [column_append, columnAfter_append, ← h.column]
    rfl
  · have hl := columnAfter_newline_cons hb c.column
    have hr := columnAfter_newline_cons hmb d.column
    rw [List.length_append] at hr
    change columnAfter d.column ('\n' :: (margin ++ b)) =
      columnAfter c.column ('\n' :: b) + margin.length
    omega

/-- One segment keeps the cursors together. -/
lemma place (h : Tandem margin text other c d) (width : Nat) (hm : '\n' ∉ margin)
    (hn : '\n' ∉ near.text) (hf : far.text = margin ++ near.text) {s : Segment} (hs : s.Plain) :
    Tandem margin (text ++ (place width near c s).1)
      (other ++ (place (width + margin.length) far d s).1) (place width near c s).2
      (place (width + margin.length) far d s).2 := by
  obtain ⟨hg, hw⟩ := hs
  have hb : ∀ a ∈ c.gapBefore s, a = ' ' := List.forall_mem_append.2 ⟨h.spaces, hg⟩
  have hd : d.gapBefore s = c.gapBefore s := by rw [gapBefore, gapBefore, h.held]
  unfold Cursor.place
  by_cases he : s.word.isEmpty
  · rw [if_pos he, if_pos he, hd, List.append_nil, List.append_nil]
    exact ⟨h.behind, h.column, h.shifted, rfl, hb⟩
  · rw [if_neg he, if_neg he, h.breaks_alike hf, hd]
    by_cases hk : (c.fits width s || !c.canBreak near s) = true
    · have hgw : '\n' ∉ c.gapBefore s ++ s.word := by simp [newline_not_mem_of_spaces hb, hw]
      rw [if_pos hk, if_pos hk]
      exact h.append hgw
    · have hnw : '\n' ∉ near.text ++ s.word := by simp [hn, hw]
      have hc : 0 < c.column := by
        obtain ⟨-, hb⟩ : c.fits width s = false ∧ c.canBreak near s = true := by simpa using hk
        have hlt : near.length < c.column := by
          rw [canBreak, Bool.and_eq_true] at hb
          exact of_decide_eq_true hb.2
        omega
      rw [if_neg hk, if_neg hk, hf, List.cons_append, List.cons_append, List.append_assoc]
      exact h.newline hm hc hnw

/-- **Breaks shift along**: segments keep the cursors together. -/
theorem placeAll (h : Tandem margin text other c d) (width : Nat) (hm : '\n' ∉ margin)
    (hn : '\n' ∉ near.text) (hf : far.text = margin ++ near.text) {ss : List Segment}
    (hs : ∀ s ∈ ss, s.Plain) :
    Tandem margin (text ++ (placeAll width near c ss).1)
      (other ++ (placeAll (width + margin.length) far d ss).1) (placeAll width near c ss).2
      (placeAll (width + margin.length) far d ss).2 := by
  induction ss generalizing text other c d with
  | nil =>
    change Tandem margin (text ++ []) (other ++ []) c d
    rwa [List.append_nil, List.append_nil]
  | cons s ss ih =>
    obtain ⟨hp, hps⟩ := List.forall_mem_cons.1 hs
    have hi := ih (h.place width hm hn hf hp) hps
    rw [List.append_assoc, List.append_assoc] at hi
    rw [Cursor.placeAll, Cursor.placeAll, writeAll_cons, writeAll_cons]
    exact hi

end Tandem

/-- The column behind the spaces held back. -/
def reach (c : Cursor) : Nat := c.column + c.held.length

lemma reach_place {c : Cursor} {s : Segment} (hs : s.Plain) (h : 0 < c.reach ∨ s.text ≠ [])
    (width : Nat) (continuation : Margin) : 0 < (place width continuation c s).2.reach := by
  have hword : ∀ (column : Nat) (front : List Char), s.word ≠ [] →
      0 < columnAfter column (front ++ s.word) := by
    intro column front hw
    rw [columnAfter_append, columnAfter_of_no_newline hs.2]
    have := List.length_pos_of_ne_nil hw
    omega
  unfold place
  by_cases he : s.word = []
  · rw [if_pos (by simpa using he), reach, gapBefore, List.length_append]
    rcases h with h | h
    · rw [reach] at h
      change 0 < c.column + (c.held.length + s.gap.length)
      omega
    · have hg : s.gap ≠ [] := by simpa [Segment.text, he] using h
      have := List.length_pos_of_ne_nil hg
      omega
  · rw [if_neg (by simpa using he)]
    split
    · exact Nat.add_pos_left (hword _ _ he) _
    · exact Nat.add_pos_left (hword _ _ he) _

lemma reach_placeAll {c : Cursor} {ss : List Segment} (hs : ∀ s ∈ ss, s.Plain)
    (h : 0 < c.reach ∨ ss.flatMap Segment.text ≠ []) (width : Nat) (continuation : Margin) :
    0 < (placeAll width continuation c ss).2.reach := by
  induction ss generalizing c with
  | nil => exact h.resolve_right (fun hn => hn rfl)
  | cons s ss ih =>
    obtain ⟨hp, hps⟩ := List.forall_mem_cons.1 hs
    rw [placeAll, writeAll_cons]
    refine ih hps ?_
    by_cases hr : 0 < c.reach ∨ s.text ≠ []
    · exact .inl (reach_place hp hr width continuation)
    · obtain ⟨hc, ht⟩ := not_or.1 hr
      refine .inr ?_
      rcases h with h | h
      · exact absurd h hc
      · simpa [not_not.1 ht] using h

end Cursor

/-! ### Lines further in -/

/-- The same style with more room in its lines. -/
def Style.widened (s : Style) (more : Nat) : Style :=
  { s with lineWidth := s.lineWidth + more, lineWidth_pos := Nat.add_pos_left s.lineWidth_pos more }

lemma newline_not_mem_copies {text : List Char} (h : '\n' ∉ text) (n : Nat) :
    '\n' ∉ copies n text := by
  rw [copies_eq]
  intro hm
  obtain ⟨l, hl, hm⟩ := List.mem_flatten.1 hm
  rw [List.eq_of_mem_replicate hl] at hm
  exact h hm

namespace Writer

variable (style : Style) (k level : Nat) (comment : Bool)

/-- The style with room for so many units of indentation. -/
abbrev roomy : Style := style.widened (k * style.unit.length)

lemma margin_shifted : (fresh (roomy style k) (k + level) comment).margin.text =
    copies k style.unit ++ (fresh style level comment).margin.text := by
  change copies (k + level) style.unit ++ _ = copies k style.unit ++ (copies level style.unit ++ _)
  rw [copies_add, List.append_assoc]
  rfl

lemma continuation_shifted : (opened (roomy style k) (k + level) comment).continuation.text =
    copies k style.unit ++ (opened style level comment).continuation.text := by
  cases comment
  · change copies (k + level + 2 * style.indentSize) style.unit ++ [] =
      copies k style.unit ++ (copies (level + 2 * style.indentSize) style.unit ++ [])
    rw [Nat.add_assoc, copies_add, List.append_assoc]
  · exact margin_shifted style k level true

variable {style}

lemma newline_not_mem_margin (hu : '\n' ∉ style.unit) :
    '\n' ∉ (fresh style level comment).margin.text := by
  change '\n' ∉ copies level style.unit ++ (if comment then ['/', '/', ' '] else [])
  have hc := newline_not_mem_copies hu level
  cases comment <;> simp [hc]

lemma newline_not_mem_continuation (hu : '\n' ∉ style.unit) :
    '\n' ∉ (opened style level comment).continuation.text := by
  cases comment
  · exact newline_not_mem_margin (level + 2 * style.indentSize) false hu
  · exact newline_not_mem_margin level true hu

/-- The writers stand behind their margins. -/
lemma tandem_opened (hu : '\n' ∉ style.unit) :
    Cursor.Tandem (copies k style.unit) (fresh style level comment).margin.text
      (copies k style.unit ++ (fresh style level comment).margin.text)
      (opened style level comment).cursor (opened (roomy style k) (k + level) comment).cursor := by
  have hm := newline_not_mem_margin level comment hu
  have hk : '\n' ∉ copies k style.unit ++ (fresh style level comment).margin.text := by
    simp [hm, newline_not_mem_copies hu k]
  refine ⟨(Behind.nil _).append hm, rfl, ?_, rfl, fun a ha => absurd ha List.not_mem_nil⟩
  change columnAfter 0 (fresh (roomy style k) (k + level) comment).margin.text =
    columnAfter 0 (fresh style level comment).margin.text + _
  rw [margin_shifted, columnAfter_of_no_newline hk, columnAfter_of_no_newline hm,
    List.length_append]
  omega

variable {runs : List (List Char)}

lemma tandem_started (hu : '\n' ∉ style.unit) (hn : '\n' ∉ runs.flatten) (he : runs.flatten ≠ []) :
    Cursor.Tandem (copies k style.unit) (started style level comment runs).1
      (started (roomy style k) (k + level) comment runs).1
      (started style level comment runs).2.cursor
      (started (roomy style k) (k + level) comment runs).2.cursor := by
  have h := (tandem_opened k level comment hu).placeAll style.lineWidth
    (newline_not_mem_copies hu k)
    (newline_not_mem_continuation level comment hu) (continuation_shifted style k level comment)
    (plain_of_mem_runs hn comment)
  rw [length_copies, ← margin_shifted] at h
  rw [started_of_text he, started_of_text he]
  exact h

lemma reach_started (hn : '\n' ∉ runs.flatten) (he : runs.flatten ≠ []) :
    0 < (started style level comment runs).2.cursor.reach := by
  have hs : (runs.flatMap (segments (!comment))).flatMap Segment.text ≠ [] := by
    rwa [flatMap_text_runs]
  rw [started_of_text he]
  exact Cursor.reach_placeAll (plain_of_mem_runs hn comment) (.inr hs) _ _

end Writer

open Writer

/-- **A line further in**: with as much more room, it is the same line behind a margin. -/
theorem lineText_shifted {style : Style} (hu : '\n' ∉ style.unit) {runs : List (List Char)}
    (hn : '\n' ∉ runs.flatten) (k level : Nat) (comment : Bool) :
    ∃ body, lineText style level comment runs = body ++ ['\n'] ∧
      lineText (roomy style k) (k + level) comment runs =
        indentText (copies k style.unit) body ++ ['\n'] := by
  by_cases he : runs.flatten = []
  · have hl := newline_not_mem_copies hu level
    refine ⟨_, Line.lineText_of_empty he style level comment, ?_⟩
    rw [Line.lineText_of_empty he]
    cases comment
    · rfl
    · have hm : '\n' ∉ copies level style.unit ++ ['/', '/'] := by simp [hl]
      have hr : copies (k + level) (roomy style k).unit =
          copies k style.unit ++ copies level style.unit := copies_add k level style.unit
      rw [if_pos rfl, if_pos rfl, indentText_of_no_newline _ hm, hr]
      simp [indentLine]
  · have ht := tandem_started k level comment hu hn he
    have hh := newline_not_mem_of_spaces ht.spaces
    have hb := ht.behind.append hh
    have hs : Started ((started style level comment runs).1 ++
        (started style level comment runs).2.cursor.held) := by
      apply started_of_column
      rw [columnAfter_append, columnAfter_of_no_newline hh, ← ht.column]
      exact reach_started level comment hn he
    refine ⟨_, lineText_of_text he style level comment, ?_⟩
    rw [lineText_of_text he, hb.indentText_eq hs, ht.held]

/-- Lines further in are the same lines behind a margin. -/
theorem lines_shifted {style : Style} (hu : '\n' ∉ style.unit) {ls : List Line}
    (hn : ∀ l ∈ ls, '\n' ∉ l.runs.flatten) (k : Nat) :
    ls.flatMap (Line.write (roomy style k) k) =
      indentText (copies k style.unit) (ls.flatMap (Line.write style 0)) := by
  induction ls with
  | nil => rfl
  | cons l ls ih =>
    obtain ⟨hl, hls⟩ := List.forall_mem_cons.1 hn
    obtain ⟨body, hb, hr⟩ := lineText_shifted hu hl k (0 + l.depth * style.indentSize) l.comment
    have hw : l.write (roomy style k) k = indentText (copies k style.unit) body ++ ['\n'] := by
      rw [← hr, Nat.zero_add]
      rfl
    rw [List.flatMap_cons, List.flatMap_cons, ih hls, hw, Line.write, hb, List.append_assoc,
      List.append_assoc, List.cons_append, List.nil_append, List.cons_append, List.nil_append,
      indentText_append_newline]

end Layout

namespace Node

/-- **Shift of nodes**: a writer that starts any number of levels further in, with as much more room
in its lines, writes the node as it is written on its own, with the indentation in front of each
line that is not empty. -/
theorem emit_shifted (n : Node) (hw : n.WellFormed) (hi : ¬ n.IsInline) (style : Style)
    (hu : '\n' ∉ style.unit) {text : String} (hp : n.print style = .ok text) (k : Nat) :
    let wide := style.widened (k * style.unit.length)
    let raised : Writer := { Writer.ofStyle wide with level := k }
    (0 < k → (Writer.ofStyle wide).indent (some k) = .ok raised) ∧
      n.emit raised = ⟨indentText (copies k style.unit) text.toList, raised, none⟩ := by
  intro wide raised
  have hr : 0 < k → (Writer.ofStyle wide).indent (some k) = .ok raised := by
    intro hk
    have hl : ¬ (Writer.ofStyle wide).levelsMeant (some k) ≤ 0 := by
      rw [Writer.levelsMeant, Option.getD_some]
      omega
    rw [Writer.indent, if_neg hl]
    simp [Writer.levelsMeant, Writer.ofStyle, raised]
  refine ⟨hr, ?_⟩
  rw [print_eq] at hp
  cases hf : n.script.fault? with
  | some e => simp [hf] at hp
  | none =>
    simp only [hf, Except.ok.injEq] at hp
    obtain ⟨ls, h, -⟩ := shows hw hi hf
    have ht : (n.emit (.ofStyle style)).text = ls.flatMap (Line.write style 0) :=
      congrArg Outcome.text (h.run style 0)
    have hs := h.run wide k
    rw [Layout.lines_shifted hu h.oneLine, ← ht] at hs
    rw [← hp, String.toList_ofList]
    exact hs

/-- Lines of sixteen characters. -/
def narrow : Style := { Style.usual with lineWidth := 16, lineWidth_pos := Nat.succ_pos 15 }

/-- The broken lines of the sample are the same three levels further in. -/
theorem emit_shifted_sample :
    (message (.sample 4)).WellFormed ∧ ¬ (message (.sample 4)).IsInline ∧
      '\n' ∉ narrow.unit ∧
      (message (.sample 4)).print narrow = .ok
        ("// A piece of\n// music\nmessage Track \x7b\n\n" ++
        "  option\n      deprecated\n      = true;\n\n" ++
        "  reserved 2, 3;\n\n  string title =\n      1;\n\n" ++
        "  oneof source \x7b\n\n    string path\n        = 4;\n  \x7d\n\x7d\n") ∧
      String.ofList ((message (.sample 4)).emit
          { Writer.ofStyle (narrow.widened 3) with level := 3 }).text =
        "   // A piece of\n   // music\n   message Track \x7b\n\n" ++
        "     option\n         deprecated\n         = true;\n\n     reserved 2, 3;\n\n" ++
        "     string title =\n         1;\n\n" ++
        "     oneof source \x7b\n\n       string path\n           = 4;\n     \x7d\n   \x7d\n" := by
  have hw : (message (.sample 4)).WellFormed := Message.sample_wellFormed (by decide)
  have hi : ¬ (message (.sample 4)).IsInline := fun h => h
  have hu : '\n' ∉ narrow.unit := by decide
  have hp : (message (.sample 4)).print narrow = .ok
      ("// A piece of\n// music\nmessage Track \x7b\n\n" ++
      "  option\n      deprecated\n      = true;\n\n" ++
      "  reserved 2, 3;\n\n  string title =\n      1;\n\n" ++
      "  oneof source \x7b\n\n    string path\n        = 4;\n  \x7d\n\x7d\n") := by decide +kernel
  have hs := (emit_shifted (message (.sample 4)) hw hi narrow hu hp 3).2
  refine ⟨hw, hi, hu, hp, ?_⟩
  have ht := congrArg Outcome.text hs
  refine (congrArg String.ofList ht).trans ?_
  decide +kernel

end Node

end ProtoSchema
