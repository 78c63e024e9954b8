import ProtoSchema.Proofs.Commentary
import ProtoSchema.Proofs.Document
import ProtoSchema.Proofs.LineWidth
import ProtoSchema.Proofs.Overflow

/-!
The words of what is printed.

A script without comments writes the words of its document at every width, for a break outside of
comments puts nothing but blanks in the place of a gap. So an option can be compared with itself in
its two forms by their unbroken texts alone: as a statement it has the words that it has in
brackets, behind the keyword and with a semicolon at the last.
-/

namespace ProtoSchema

open Layout Layout.Writer Print

namespace Layout

/-! ### Words of texts put together -/

lemma words_solid {text : List Char} (hn : text ≠ []) (h : ∀ c ∈ text, isBlank c = false) :
    words text = [text] := by
  rw [words, List.splitOnP_eq_singleton h]
  simp [hn]

lemma words_ended (ls : List (List Char)) :
    words (ls.flatMap (· ++ ['\n'])) = ls.flatMap words := by
  induction ls with
  | nil => exact words_nil
  | cons l ls ih =>
    rw [List.flatMap_cons, List.flatMap_cons, List.append_assoc, List.singleton_append,
      words_append_cons rfl, ih]

/-- The last word of a text goes on with what stands behind the text, up to the next blank. -/
lemma exists_words_append (text : List Char) : ∃ front last, ∀ more, more ≠ [] →
    (∀ c ∈ more, isBlank c = false) → words (text ++ more) = front ++ [last ++ more] := by
  induction text using List.reverseRecOn with
  | nil => exact ⟨[], [], fun more hn hm => words_solid hn hm⟩
  | append_singleton text c ih =>
    obtain ⟨front, last, h⟩ := ih
    by_cases hc : isBlank c
    · refine ⟨words text, [], fun more hn hm => ?_⟩
      rw [List.append_assoc, List.singleton_append, words_append_cons hc, words_solid hn hm]
      rfl
    · refine ⟨front, last ++ [c], fun more _ hm => ?_⟩
      rw [List.append_assoc, h _ (by simp) (List.forall_mem_append.2 ⟨by simpa using hc, hm⟩)]
      simp

lemma flatMap_words_below {step : List Char} (hs : ∀ c ∈ step, isBlank c) (ls : List (List Char)) :
    (below step ls).flatMap words = ls.flatMap words := by
  have hl : ∀ l, words (indentLine step l) = words l := by
    intro l
    unfold indentLine
    split
    · next h => rw [h]
    · exact words_blank_append hs l
  rw [below, List.flatMap_map]
  exact congrArg (ls.flatMap ·) (funext hl)

/-! ### No break repeats a marker -/

namespace Writer

variable {w : Writer}

lemma isStatement_wrapLinePlan (h : w.comment = false) (text : List Char) :
    ∀ p ∈ w.wrapLinePlan text, p.IsStatement := by
  have hk : w.continuation.marker = [] := by simp [continuation, margin, h]
  refine (forall_mem_planAll (P := fun _ => True) (fun c _ s _ => ⟨?_, trivial⟩) trivial).1
  unfold Cursor.placePlan
  split
  · simp
  · exact List.forall_mem_singleton.2 hk

lemma isStatement_runPlan (h : w.comment = false) (text : List Char) :
    ∀ p ∈ w.runPlan text, p.IsStatement := by
  have ho : w.openLine.2.comment = false := by
    unfold openLine
    split <;> exact h
  unfold runPlan
  split
  · simp
  · exact List.forall_mem_append.2 ⟨List.forall_mem_singleton.2 trivial,
      isStatement_wrapLinePlan ho text⟩

lemma isStatement_emitPlan (h : w.comment = false) (text : List Char) :
    ∀ p ∈ w.emitPlan text, p.IsStatement := by
  have hr : ∀ l, (w.run l).2.comment = false :=
    fun l => (congrArg (·.2.2) (w.frame_run l)).trans h
  unfold emitPlan
  split
  · simp
  · next l ls _ =>
    refine List.forall_mem_append.2 ⟨isStatement_runPlan h l, ?_⟩
    refine (forall_mem_planAll (P := fun v => v.comment = false)
      (fun v hv k _ => ⟨?_, ?_⟩) (hr l)).1
    · have hn : v.newline.2.comment = false := hv
      exact List.forall_mem_append.2 ⟨List.forall_mem_singleton.2 trivial, isStatement_runPlan hn k⟩
    · exact (congrArg (·.2.2) (v.frame_nextLine k)).trans hv

/-- A line is ended behind the spaces that were held back. -/
lemma text_emit_newline (h : w.comment = false) : (w.emit ['\n']).1 = w.cursor.held ++ ['\n'] := by
  rw [emit_newline]
  simp [newline, append, Cursor.append, h]

end Writer

end Layout

/-! ### Scripts without comments -/

namespace Print

mutual

/-- No comment is written in the step. -/
def Step.Uncommented : Step → Prop
  | .comment lines => lines = []
  | .body steps => Script.Uncommented steps
  | .emit _ | .indent _ | .unindent _ | .fail _ => True

/-- No comment is written in the script. -/
def Script.Uncommented : Script → Prop
  | [] => True
  | step :: steps => step.Uncommented ∧ Script.Uncommented steps

end

mutual

lemma Step.isStatement_plan : ∀ (s : Step) {w : Writer}, s.Uncommented → w.comment = false →
    ∀ p ∈ s.plan w, p.IsStatement
  | .emit text, _, _, hw => isStatement_emitPlan hw text.toList
  | .comment lines, _, hs, _ => by
    obtain rfl : lines = [] := hs
    simp [Step.plan, commentPlan, planAll]
  | .indent _, _, _, _ | .unindent _, _, _, _ | .fail _, _, _, _ => by simp [Step.plan]
  | .body steps, _, hs, hw => Script.isStatement_plan steps hs hw

lemma Script.isStatement_plan : ∀ (s : Script) {w : Writer}, s.Uncommented →
    w.comment = false → ∀ p ∈ s.plan w, p.IsStatement
  | [], _, _, _ => by simp [Script.plan]
  | step :: steps, w, hs, hw => by
    have hv := (step.keeps (kept_plain w.style) ⟨hw, rfl⟩).1
    refine List.forall_mem_append.2 ⟨step.isStatement_plan hs.1 hw, ?_⟩
    unfold Outcome.planNext
    split
    · simp
    · exact Script.isStatement_plan steps hs.2 hv

end

lemma Step.uncommented_literal (before : String) (literal : Except FormatError String)
    (after : String) :
    (Step.literal before literal after).Uncommented := by
  cases literal <;> exact trivial

namespace Script

variable {s : Script} {style : Style}

lemma uncommented_iff : Uncommented s ↔ ∀ step ∈ s, step.Uncommented := by
  induction s with
  | nil => simp [Uncommented]
  | cons step steps ih => rw [Uncommented, ih, List.forall_mem_cons]

/-- Only the words of the pieces are seen, whatever becomes of the gaps. -/
lemma words_run (hs : s.Uncommented) (hu : ∀ c ∈ style.unit, c = ' ') :
    words (Script.run s (.ofStyle style)).text = words (unbroken (s.plan (.ofStyle style))) := by
  have hsets := (Script.follows s).planned.sets (.ofStyle style)
  have hp := (hsets.proper fun c hc => absurd hc List.not_mem_nil).1
  have ht : (Script.run s (.ofStyle style)).text = _ := hsets.text
  rw [ht]
  exact (rebroken_fill hp _ _).words_eq hu hp (s.isStatement_plan hs rfl)

/-- Lines that have room are written as they are. -/
lemma text_of_room {ls : List Line} (h : Lays s ls)
    (hl : ∀ l ∈ ls, (l.plain (copies style.indentSize style.unit)).length ≤ style.lineWidth) :
    (Script.run s (.ofStyle style)).text =
      (ls.map (Line.plain (copies style.indentSize style.unit))).flatMap (· ++ ['\n']) := by
  have hlines :
      ∀ l ∈ ls, l.write style 0 = l.plain (copies style.indentSize style.unit) ++ ['\n'] :=
    fun l hm => Line.write_of_room (h.oneLine l hm) (hl l hm)
  calc (Script.run s (.ofStyle style)).text
      = ls.flatMap (Line.write style 0) := congrArg Outcome.text (h.run style 0)
    _ = ls.flatMap fun l => l.plain (copies style.indentSize style.unit) ++ ['\n'] := by
      rw [List.flatMap_def, List.flatMap_def, List.map_congr_left hlines]
    _ = (ls.map (Line.plain (copies style.indentSize style.unit))).flatMap (· ++ ['\n']) := by
      rw [List.flatMap_map]

/-- The style with room for the lines. -/
def roomy (style : Style) (ls : List (List Char)) : Style :=
  { style with lineWidth := ls.flatten.length + 1, lineWidth_pos := Nat.succ_pos _ }

/-- A script that is laid out in lines has the words of its document at every width. -/
theorem words_of_shows {doc : List Char → List (List Char)} (h : Shows s doc) (hs : s.Uncommented)
    (hu : ∀ c ∈ style.unit, c = ' ') :
    words (Script.run s (.ofStyle style)).text =
      (doc (copies style.indentSize style.unit)).flatMap words := by
  obtain ⟨ls, hl, hd⟩ := h
  rw [← hd]
  set d := ls.map (Line.plain (copies style.indentSize style.unit))
  -- the pieces are the same where all lines have room
  have ha : (Writer.ofStyle style).Alike (.ofStyle (roomy style d)) :=
    ⟨rfl, rfl, rfl, rfl, rfl, rfl⟩
  have hplan : s.plan (.ofStyle style) = s.plan (.ofStyle (roomy style d)) :=
    ((Script.follows s).planned.alike ha).2
  have hroom : ∀ l ∈ ls,
      (l.plain (copies style.indentSize style.unit)).length ≤ (roomy style d).lineWidth := by
    intro l hm
    have hmem : l.plain (copies style.indentSize style.unit) ∈ d := List.mem_map_of_mem hm
    exact (List.sublist_flatten_of_mem hmem).length_le.trans (Nat.le_succ _)
  have hwide : (Script.run s (.ofStyle (roomy style d))).text = d.flatMap (· ++ ['\n']) :=
    text_of_room hl hroom
  have hroomy : ∀ c ∈ (roomy style d).unit, c = ' ' := hu
  rw [words_run hs hu, hplan, ← words_run hs hroomy, hwide, words_ended]

/-- The end of a line adds no words, nor do the spaces that were held back in front of it. -/
lemma words_run_ended (h : (Script.run s (.ofStyle style)).error = none) :
    words (Script.run (s ++ [.emit "\n"]) (.ofStyle style)).text =
      words (Script.run s (.ofStyle style)).text := by
  have hw : (Script.run s (.ofStyle style)).writer.comment = false :=
    (Script.keeps (kept_plain style) s ⟨rfl, rfl⟩).1
  have hheld := (((Script.follows s).planned.sets (.ofStyle style)).proper
    fun c hc => absurd hc List.not_mem_nil).2
  set r := Script.run s (.ofStyle style) with hr
  have htext : (Script.run (s ++ [.emit "\n"]) (.ofStyle style)).text =
      r.text ++ (r.writer.cursor.held ++ ['\n'] ++ []) := by
    rw [run_append, ← hr, Outcome.andThen_of_no_error h, List.append_nil, ← text_emit_newline hw]
    simp [Script.run, Step.run, Outcome.ofWritten, Outcome.andThen]
  have hblank : ∀ c ∈ r.writer.cursor.held ++ ['\n'], isBlank c :=
    List.forall_mem_append.2 ⟨isBlank_of_spaces hheld, List.forall_mem_singleton.2 rfl⟩
  rw [htext, words_append_blank hblank (by simp), words_nil, List.append_nil]

/-- A script that only emits a text has the words of the text. -/
theorem words_of_emits {text : String} (h : Emits s text) (hu : ∀ c ∈ style.unit, c = ' ') :
    words (Script.run s (.ofStyle style)).text = words text.toList := by
  have hshows : Shows (s ++ [.emit "\n"]) fun _ => textDoc text := .emits (h.append (.single "\n"))
  obtain ⟨parts, rfl, -⟩ := h
  have hparts : Uncommented (parts.map .emit ++ [.emit "\n"]) := by
    refine uncommented_iff.2
      (List.forall_mem_append.2 ⟨fun step hm => ?_, by simp [Step.Uncommented]⟩)
    obtain ⟨part, -, rfl⟩ := List.mem_map.1 hm
    exact trivial
  have herror : (Script.run (parts.map .emit) (.ofStyle style)).error = none := by
    rw [run_emits]
    rfl
  rw [← words_run_ended herror, words_of_shows hshows hparts hu, textDoc, words_lines]

end Script

end Print

/-! ### Options -/

namespace FieldType

variable {type : FieldType} {value : Scalar} {literal : String}

/-- The last word of a literal goes on to its end. -/
lemma exists_last_of_format (hm : type.mismatch? value = none)
    (he : type = .enum → IsWord value.plainText) (hf : type.format value = .ok literal) :
    ∃ front c, literal.toList = front ++ [c] ∧ isBlank c = false := by
  have hcloses := closes_literal hm he hf
  have hclean : Clean ([] ++ literal.toList ++ []) :=
    clean_literal hm he hf (by decide) (fun _ => List.not_mem_nil) (by decide)
  obtain ⟨front, c, hlast⟩ := literal.toList.eq_nil_or_concat'.resolve_left hcloses.1
  refine ⟨front, c, hlast, ?_⟩
  have hspace : c ≠ ' ' := fun h => hcloses.2 (by simp [hlast, h])
  have hnewline : c ≠ '\n' := by
    rintro rfl
    exact hclean.newline (by simp [hlast])
  simp [isBlank, hspace, hnewline]

end FieldType

namespace OptionDecl

variable {o : OptionDecl}

/-- Entries with a blank behind each of them. -/
lemma words_entries (es : List OptionEntry) (more : List Char) :
    words ((String.join (es.map (·.text ++ " "))).toList ++ more) =
      es.flatMap (words ·.text.toList) ++ words more := by
  induction es with
  | nil => rfl
  | cons e es ih =>
    have hspace : (" " : String).toList = [' '] := rfl
    rw [List.map_cons, String.join_cons, List.flatMap_cons, String.toList_append,
      String.toList_append, hspace, List.append_assoc, List.append_assoc, List.singleton_append,
      words_append_cons rfl, ih, List.append_assoc]

/-- Behind its keyword a statement has the words that the option has in brackets, ended by a
semicolon. -/
lemma words_doc (hc : o.comment = []) {step : List Char} (hs : ∀ c ∈ step, isBlank c) :
    (o.doc step).flatMap words = "option".toList :: words (o.inlineText.toList ++ [';']) := by
  have hkeyword : ∀ text : String, words ("option " ++ text).toList =
      "option".toList :: words text.toList := by
    intro text
    have hk : ("option " ++ text).toList = "option".toList ++ ' ' :: text.toList := by simp
    rw [hk, words_append_cons rfl]
    rfl
  have hnone : commentDoc o.comment = [] := by rw [hc]; rfl
  unfold doc inlineText
  rw [hnone, List.nil_append]
  split
  · next type value _ =>
    have ht : "option " ++ o.writtenName ++ " = " ++ literalText (type.format value) ++ ";" =
        "option " ++ (o.writtenName ++ " = " ++ literalText (type.format value) ++ ";") := by
      simp only [String.append_assoc]
    rw [textDoc, words_lines, ht, hkeyword]
    simp
  · next es _ =>
    have hbrackets :
        (o.writtenName ++ " = \x7b " ++ String.join (es.map (·.text ++ " ")) ++ "\x7d").toList ++
          [';'] =
        (o.writtenName ++ " = \x7b").toList ++
          ' ' :: ((String.join (es.map (·.text ++ " "))).toList ++ "\x7d;".toList) := by simp
    have hentries : (es.flatMap fun e => textDoc e.text).flatMap words =
        es.flatMap (words ·.text.toList) := by
      rw [List.flatMap_assoc]
      exact congrArg (es.flatMap ·) (funext fun e => words_lines e.text.toList)
    rw [List.flatMap_append, List.flatMap_append, flatMap_words_below hs, hentries, textDoc,
      words_lines, textDoc, words_lines, String.append_assoc, hkeyword, hbrackets,
      words_append_cons rfl, words_entries]
    simp

/-- In brackets an option ends in a character of a word. -/
lemma exists_last_of_inlineText {target : OptionTarget} (hw : o.WellFormed target)
    (he : ∀ v ∈ o.typedValues, v.1 = .enum → IsWord v.2.plainText)
    (hl : ∀ v ∈ o.typedValues, ¬ TooLarge v) :
    ∃ front c, o.inlineText.toList = front ++ [c] ∧ isBlank c = false := by
  have hv := hw.value
  unfold typedValues at he hl
  unfold inlineText
  split
  · next type value ho =>
    simp only [ho] at hv he hl
    obtain ⟨text, hf⟩ := FieldType.format_ok hv (hl _ List.mem_cons_self)
    obtain ⟨front, c, hlast, hc⟩ := FieldType.exists_last_of_format hv (he _ List.mem_cons_self) hf
    refine ⟨(o.writtenName ++ " = ").toList ++ front, c, ?_, hc⟩
    rw [hf, literalText, String.toList_append, hlast, List.append_assoc]
  · exact ⟨_, '\x7d', String.toList_append, rfl⟩

lemma uncommented_script (hc : o.comment = []) (ht : o.target.isInline = false) :
    Script.Uncommented o.script := by
  have hentry :
      ∀ (es : List OptionEntry), ∀ step ∈ es.map (OptionEntry.step · "\n"), step.Uncommented := by
    intro es step hm
    obtain ⟨e, -, rfl⟩ := List.mem_map.1 hm
    exact Step.uncommented_literal _ _ _
  rw [script, if_neg (by simp [ht]), hc, Script.uncommented_iff]
  unfold statementScript
  split
  · simp [Step.Uncommented, Step.uncommented_literal]
  · next es _ =>
    have hclosing : ∀ step ∈ [Step.unindent none, .emit "\x7d;\n"], step.Uncommented := by
      simp [Step.Uncommented]
    have hbody := List.forall_mem_append.2 ⟨hentry es, hclosing⟩
    exact List.forall_mem_cons.2 ⟨rfl,
      List.forall_mem_cons.2 ⟨trivial, List.forall_mem_cons.2 ⟨trivial, hbody⟩⟩⟩

end OptionDecl

namespace Node

/-- **Two forms of an option**: without a comment, a statement prints the words that the same option
has in brackets, behind the keyword and with a semicolon at the last of them, in any two styles that
indent by spaces. -/
theorem print_same_words {s i : OptionDecl} (hs : s.target.isInline = false)
    (hi : i.target.isInline = true) (hw : s.WellFormed s.target) (hc : s.comment = [])
    (hn : s.writtenName = i.writtenName) (hv : s.value = i.value)
    (he : ∀ v ∈ s.typedValues, v.1 = .enum → IsWord v.2.plainText)
    (hl : ∀ v ∈ s.typedValues, ¬ TooLarge v) (style style' : Style) (hu : ∀ c ∈ style.unit, c = ' ')
    (hu' : ∀ c ∈ style'.unit, c = ' ') :
    ∃ a b front last, (option s).print style = .ok a ∧ (option i).print style' = .ok b ∧
      words b.toList = front ++ [last] ∧
      words a.toList = "option".toList :: (front ++ [last ++ [';']]) := by
  have hscript : i.script = s.inlineScript := by
    unfold OptionDecl.script OptionDecl.inlineScript
    rw [if_pos hi, hv, hn]
  have hfault : (option s).script.fault? = none := OptionDecl.fault?_script hw hl
  have hfault' : s.inlineScript.fault? = none := OptionDecl.fault?_inlineScript hw hl
  -- both texts are compared with the one that stands in brackets on a single line
  obtain ⟨text, c, htext, hblank⟩ := OptionDecl.exists_last_of_inlineText hw he hl
  obtain ⟨front, last, hlast⟩ := exists_words_append text
  have hstatement :=
    Script.words_of_shows (OptionDecl.shows hs hfault) (OptionDecl.uncommented_script hc hs) hu
  have hstep := isBlank_of_spaces (spaces_copies hu style.indentSize)
  have hbrackets := Script.words_of_emits (OptionDecl.emits_inline hfault') hu'
  have hsemicolon : isBlank ';' = false := rfl
  rw [OptionDecl.words_doc hc hstep, htext, List.append_assoc,
    hlast ([c] ++ [';']) (by simp) (by simp [hblank, hsemicolon])] at hstatement
  rw [htext, hlast [c] (by simp) (by simp [hblank])] at hbrackets
  refine ⟨_, _, front, last ++ [c], print_eq_ok.2 ⟨hfault, rfl⟩,
    print_eq_ok.2 ⟨(congrArg Script.fault? hscript).trans hfault', rfl⟩, ?_, ?_⟩
  · rw [String.toList_ofList, Node.emit, Node.script, hscript, hbrackets]
  · rw [String.toList_ofList, Node.emit, Node.script, hstatement]
    simp

/-- A text with a quote, a colon and two spaces in a row, as an entry of a message option on lines
of twelve characters and of a field option on one line. -/
theorem print_same_words_note :
    let note : OptionTarget → OptionDecl := fun t => ⟨t, "note", [],
      .entries [⟨"text", .string, .text "a: \"b  c"⟩, ⟨"kind", .enum, .text "BIG"⟩]⟩
    let narrow : Style := ⟨[' '], 2, 12, by decide, by decide⟩
    (note .message).WellFormed .message ∧ (note .message).writtenName = (note .field).writtenName ∧
      ∃ a b front last, (option (note .message)).print narrow = .ok a ∧
        (option (note .field)).print .usual = .ok b ∧
        a = "option\n    (note) =\n    \x7b\n  text: \"a: \\\"b  c\"\n  kind: BIG\n\x7d;\n" ∧
        b = "(note) = \x7b text: \"a: \\\"b  c\" kind: BIG \x7d" ∧
        words b.toList = front ++ [last] ∧
        words a.toList = "option".toList :: (front ++ [last ++ [';']]) := by
  intro note narrow
  have hvalue : (note .message).value.WellFormed :=
    List.forall_mem_cons.2 ⟨rfl, List.forall_mem_singleton.2 rfl⟩
  have hw : (note .message).WellFormed .message := ⟨rfl, fun _ => rfl, hvalue⟩
  have hn : (note .message).writtenName = (note .field).writtenName := by decide
  have hvalues : (note .message).typedValues =
      [(.string, .text "a: \"b  c"), (.enum, .text "BIG")] := rfl
  have he : ∀ v ∈ (note .message).typedValues, v.1 = .enum → IsWord v.2.plainText := by
    rw [hvalues]
    decide
  have hl : ∀ v ∈ (note .message).typedValues, ¬ TooLarge v := by
    simp [hvalues, TooLarge]
  have hu : ∀ c ∈ [' '], c = ' ' := List.forall_mem_singleton.2 rfl
  obtain ⟨a, b, front, last, ha, hb, hwords⟩ :=
    print_same_words rfl rfl hw rfl hn rfl he hl narrow .usual hu hu
  have hna : a =
      "option\n    (note) =\n    \x7b\n  text: \"a: \\\"b  c\"\n  kind: BIG\n\x7d;\n" := by
    rw [← (print_eq_ok.1 ha).2]
    decide +kernel
  have hnb : b = "(note) = \x7b text: \"a: \\\"b  c\" kind: BIG \x7d" := by
    rw [← (print_eq_ok.1 hb).2]
    decide +kernel
  exact ⟨hw, hn, a, b, front, last, ha, hb, hna, hnb, hwords⟩

end Node

end ProtoSchema
