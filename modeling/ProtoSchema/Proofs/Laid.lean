import ProtoSchema.Proofs.Fault
import ProtoSchema.Proofs.Line

/-!
Scripts that are laid out in lines.

Such a script starts at the start of a line and ends at the start of the line below. It writes the
same lines in every style and at every level, so it can be described by unbroken lines that know
nothing of a writer.
-/

namespace ProtoSchema

open Layout Layout.Writer

/-! ### Lines further in -/

namespace Layout

/-- A line one indent step further in; empty lines stay empty. -/
def indentLine (step l : List Char) : List Char := if l = [] then [] else step ++ l

/-- Several lines one indent step further in. -/
def below (step : List Char) (ls : List (List Char)) : List (List Char) := ls.map (indentLine step)

lemma Line.plain_deeper (step : List Char) (l : Line) :
    l.deeper.plain step = indentLine step (l.plain step) := by
  have hc : l.deeper.content = l.content := rfl
  have hd : l.deeper.depth = l.depth + 1 := rfl
  rw [plain, plain, hc, hd, indentLine, copies_succ]
  by_cases h : l.content = [] <;> simp [h]

lemma Line.write_deeper (style : Style) (level : Nat) (l : Line) :
    l.deeper.write style level = l.write style (level + style.indentSize) := by
  have hd : level + (l.depth + 1) * style.indentSize =
      level + style.indentSize + l.depth * style.indentSize := by
    rw [Nat.succ_mul]
    omega
  change lineText style (level + (l.depth + 1) * style.indentSize) l.comment l.runs = _
  rw [hd]
  rfl

end Layout

namespace Print

/-! ### Laid out scripts -/

/-- The script writes the lines, from the start of a line to the start of another. -/
structure Lays (s : Script) (ls : List Line) : Prop where
  run : ∀ style level, Script.run s (fresh style level false) =
    ⟨ls.flatMap (Line.write style level), fresh style level false, none⟩
  oneLine : ∀ l ∈ ls, '\n' ∉ l.runs.flatten

namespace Lays

variable {s t : Script} {ls ks : List Line}

lemma nil : Lays [] [] := ⟨fun _ _ => rfl, by simp⟩

lemma append (hs : Lays s ls) (ht : Lays t ks) : Lays (s ++ t) (ls ++ ks) := by
  refine ⟨fun style level => ?_, List.forall_mem_append.2 ⟨hs.oneLine, ht.oneLine⟩⟩
  rw [Script.run_append, hs.run, Outcome.andThen_of_no_error rfl, ht.run, List.flatMap_append]

lemma deeper_run (h : Lays s ls) (style : Style) (level : Nat) :
    Script.run s (fresh style level false).stepIn =
      ⟨(ls.map Line.deeper).flatMap (Line.write style level), (fresh style level false).stepIn,
        none⟩ := by
  have hr := h.run style (level + style.indentSize)
  have hw : (ls.map Line.deeper).flatMap (Line.write style level) =
      ls.flatMap (Line.write style (level + style.indentSize)) := by
    rw [List.flatMap_map]
    exact congrArg (ls.flatMap ·) (funext fun l => Line.write_deeper style level l)
  rw [hw]
  exact hr

lemma oneLine_deeper (h : Lays s ls) : ∀ l ∈ ls.map Line.deeper, '\n' ∉ l.runs.flatten := by
  intro l hl
  obtain ⟨k, hk, rfl⟩ := List.mem_map.1 hl
  exact h.oneLine k hk

lemma unindent_stepIn (style : Style) (level : Nat) :
    (fresh style level false).stepIn.unindent none = .ok (fresh style level false) := by
  have hl : (fresh style level false).stepIn.level = level + style.indentSize := rfl
  have hs : (fresh style level false).stepIn.style.indentSize = style.indentSize := rfl
  rw [unindent_none (by omega)]
  simp [stepOut, stepIn, fresh]

lemma body (h : Lays s ls) : Lays [.body s] (ls.map Line.deeper) := by
  refine ⟨fun style level => ?_, h.oneLine_deeper⟩
  rw [Script.run, Step.run, indent_none]
  simp only [Outcome.leaveBody]
  rw [h.deeper_run, unindent_stepIn, Outcome.andThen_of_no_error rfl]
  simp [Script.run]

lemma indented (h : Lays s ls) :
    Lays (.indent none :: (s ++ [.unindent none])) (ls.map Line.deeper) := by
  refine ⟨fun style level => ?_, h.oneLine_deeper⟩
  rw [run_indented, h.deeper_run, Outcome.andThen_of_no_error rfl, Script.run, Step.run,
    unindent_stepIn, Outcome.ofChange, Outcome.nothing_andThen, Script.run, List.append_nil]

end Lays

/-! ### Texts -/

/-- The script emits a text in one or more parts. -/
def Emits (s : Script) (text : String) : Prop :=
  ∃ parts : List String, s = parts.map .emit ∧ (parts.map String.toList).flatten = text.toList

namespace Emits

lemma single (text : String) : Emits [.emit text] text := ⟨[text], rfl, by simp⟩

lemma nil : Emits [] "" := ⟨[], rfl, rfl⟩

lemma append {s t : Script} {a b : String} (hs : Emits s a) (ht : Emits t b) :
    Emits (s ++ t) (a ++ b) := by
  obtain ⟨ps, rfl, hp⟩ := hs
  obtain ⟨qs, rfl, hq⟩ := ht
  refine ⟨ps ++ qs, (List.map_append).symm, ?_⟩
  rw [List.map_append, List.flatten_append, hp, hq, String.toList_append]

lemma cons {s : Script} {a b : String} (hs : Emits s b) : Emits (.emit a :: s) (a ++ b) :=
  (single a).append hs

end Emits

lemma run_emits (parts : List String) (w : Writer) :
    Script.run (parts.map .emit) w = .ofWritten (writeAll emit w (parts.map String.toList)) := by
  induction parts generalizing w with
  | nil => rfl
  | cons p ps ih =>
    rw [List.map_cons, Script.run, Step.run, List.map_cons, writeAll_cons,
      Outcome.andThen_of_no_error rfl]
    simp only [Outcome.ofWritten] at ih ⊢
    rw [ih]

/-! ### Scripts and their unbroken lines -/

/-- A comment line as it is written. -/
def marked (l : List Char) : List Char := if l = [] then ['/', '/'] else ['/', '/', ' '] ++ l

/-- A comment, each of its entries cut at its newlines. -/
def commentDoc (comment : List String) : List (List Char) :=
  comment.flatMap fun entry => (lines entry.toList).map marked

lemma commentDoc_cons (entry : String) (comment : List String) :
    commentDoc (entry :: comment) = (lines entry.toList).map marked ++ commentDoc comment :=
  List.flatMap_cons

/-- The lines of a text. -/
def textDoc (text : String) : List (List Char) := lines text.toList

/-- The script is laid out in lines that look like the document, given what an indent step
looks like. -/
def Shows (s : Script) (doc : List Char → List (List Char)) : Prop :=
  ∃ ls, Lays s ls ∧ ∀ step, ls.map (Line.plain step) = doc step

/-- Lines without indentation, from their runs. -/
def flatLines (comment : Bool) (runs : List (List (List Char))) : List Line :=
  runs.map fun r => { comment, runs := r }

lemma write_flatLines (comment : Bool) (runs : List (List (List Char))) (style : Style)
    (level : Nat) :
    (flatLines comment runs).flatMap (Line.write style level) =
      runs.flatMap (lineText style level comment) := by
  rw [flatLines, List.flatMap_map]
  simp [Line.write]

lemma oneLine_flatLines {runs : List (List (List Char))} {text : List Char}
    (h : runs.map List.flatten = lines text) (comment : Bool) :
    ∀ l ∈ flatLines comment runs, '\n' ∉ l.runs.flatten := by
  intro l hl
  obtain ⟨r, hr, rfl⟩ := List.mem_map.1 hl
  exact newline_not_mem_of_mem_lines (h ▸ List.mem_map_of_mem hr)

lemma exists_commentLine (entry : String) :
    ∃ ended : List (List (List Char)), ended.map List.flatten = lines entry.toList ∧
      ∀ style level, (fresh style level false).commentLine entry =
        (ended.flatMap (lineText style level true), fresh style level false) := by
  have ht : [entry.toList, ['\n']].flatten = entry.toList ++ ['\n'] := by simp
  obtain ⟨ended, he, hr⟩ := exists_lines ht
  refine ⟨ended, he, fun style level => ?_⟩
  have hf := hr style level true
  rw [writeAll_cons, writeAll_cons, writeAll_nil, List.append_nil] at hf
  obtain ⟨htext, hw⟩ := Prod.mk.inj hf
  refine Prod.ext htext ?_
  -- only the comment is left again
  change
    { (((fresh style level true).emit entry.toList).2.emit ['\n']).2 with comment := false } = _
  rw [hw]
  rfl

lemma exists_commentLines (comment : List String) :
    ∃ ls : List Line, (∀ l ∈ ls, '\n' ∉ l.runs.flatten) ∧
      (∀ step, ls.map (Line.plain step) = commentDoc comment) ∧
      ∀ style level, (fresh style level false).emitComment comment =
        (ls.flatMap (Line.write style level), fresh style level false) := by
  induction comment with
  | nil => exact ⟨[], by simp, fun _ => rfl, fun _ _ => rfl⟩
  | cons entry comment ih =>
    obtain ⟨ls, ho, hd, hw⟩ := ih
    obtain ⟨ended, he, hl⟩ := exists_commentLine entry
    refine ⟨flatLines true ended ++ ls, ?_, fun step => ?_, fun style level => ?_⟩
    · exact List.forall_mem_append.2 ⟨oneLine_flatLines he true, ho⟩
    · rw [List.map_append, hd, commentDoc_cons, ← he, flatLines, List.map_map, List.map_map]
      refine congrArg (· ++ _) (List.map_congr_left fun r _ => ?_)
      simp only [Function.comp, Line.plain, Line.content, marked]
      by_cases h : r.flatten = [] <;> simp [h, copies_eq]
    · have hc := hw style level
      rw [emitComment] at hc
      rw [emitComment, writeAll_cons, hl, hc, List.flatMap_append, write_flatLines]

namespace Shows

variable {s t : Script} {d e : List Char → List (List Char)}

lemma nil : Shows [] fun _ => [] := ⟨[], .nil, fun _ => rfl⟩

lemma append (hs : Shows s d) (ht : Shows t e) : Shows (s ++ t) fun step => d step ++ e step := by
  obtain ⟨ls, hl, hd⟩ := hs
  obtain ⟨ks, hk, he⟩ := ht
  exact ⟨ls ++ ks, hl.append hk, fun step => by rw [List.map_append, hd, he]⟩

lemma flatMap {α : Type} {script : α → Script} {doc : α → List Char → List (List Char)}
    {as : List α} (h : ∀ a ∈ as, Shows (script a) (doc a)) :
    Shows (as.flatMap script) fun step => as.flatMap fun a => doc a step := by
  induction as with
  | nil => exact nil
  | cons a as ih =>
    exact (h a List.mem_cons_self).append (ih fun b hb => h b (List.mem_cons_of_mem a hb))

lemma plain_deeper {ls : List Line} (hd : ∀ step, ls.map (Line.plain step) = d step)
    (step : List Char) : (ls.map Line.deeper).map (Line.plain step) = below step (d step) := by
  rw [← hd, below, List.map_map, List.map_map]
  exact List.map_congr_left fun l _ => Line.plain_deeper step l

lemma body (h : Shows s d) : Shows [.body s] fun step => below step (d step) := by
  obtain ⟨ls, hl, hd⟩ := h
  exact ⟨_, hl.body, plain_deeper hd⟩

lemma indented (h : Shows s d) :
    Shows (.indent none :: (s ++ [.unindent none])) fun step => below step (d step) := by
  obtain ⟨ls, hl, hd⟩ := h
  exact ⟨_, hl.indented, plain_deeper hd⟩

lemma comment (c : List String) : Shows [.comment c] fun _ => commentDoc c := by
  obtain ⟨ls, ho, hd, hw⟩ := exists_commentLines c
  refine ⟨ls, ⟨fun style level => ?_, ho⟩, hd⟩
  rw [Script.run, Step.run, hw]
  simp [Outcome.ofWritten, Outcome.andThen, Script.run]

lemma emits {text : String} (h : Emits s (text ++ "\n")) : Shows s fun _ => textDoc text := by
  obtain ⟨parts, rfl, hp⟩ := h
  rw [String.toList_append] at hp
  obtain ⟨ended, he, hw⟩ := exists_lines hp
  refine ⟨flatLines false ended, ⟨fun style level => ?_, oneLine_flatLines he false⟩,
    fun step => ?_⟩
  · rw [run_emits, hw, write_flatLines]
    rfl
  · rw [textDoc, ← he, flatLines, List.map_map]
    refine List.map_congr_left fun r _ => ?_
    simp only [Function.comp, Line.plain, Line.content]
    by_cases h : r.flatten = [] <;> simp [h, copies_eq]

end Shows

end Print

end ProtoSchema
