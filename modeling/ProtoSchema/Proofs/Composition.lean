import ProtoSchema.Proofs.Document
import ProtoSchema.Proofs.Idle

/-!
Nodes written one after another.

Every node but an option in brackets ends with a text that ends a line. It raises the level as
often as it lowers it, and comments are over when they are written. So it leaves a writer as good
as new behind the lines it has written, wherever these start, and nothing of one node shows in the
text of the next.
-/

namespace ProtoSchema

open Layout Layout.Writer Print Usage

namespace Print

/-! ### Texts that end a line -/

/-- The last character of the text is a newline. -/
def Ends (text : String) : Prop := ∃ body, text.toList = body ++ ['\n']

lemma Ends.append {b : String} (h : Ends b) (a : String) : Ends (a ++ b) := by
  obtain ⟨body, h⟩ := h
  exact ⟨a.toList ++ body, by rw [String.toList_append, h, List.append_assoc]⟩

/-! ### Scripts that end a line -/

/-- The writer stands at the start of a line, and nothing is held back in front of it. -/
def AtStart (w : Writer) : Prop := w = fresh w.style w.level w.comment

/-- Wherever the script starts, it ends at the start of a line if it comes to its end. -/
structure EndsLine (s : Script) : Prop where
  run : ∀ w : Writer, (Script.run s w).error = none → AtStart (Script.run s w).writer

namespace EndsLine

variable {s t : Script}

lemma emit {text : String} (h : Ends text) : EndsLine [.emit text] := by
  obtain ⟨body, h⟩ := h
  refine ⟨fun w _ => ?_⟩
  have he : (Script.run [.emit text] w).writer = (w.emit text.toList).2 := rfl
  rw [he, h, emit_ended_eq_fresh]
  rfl

lemma fail (error : PrintError) : EndsLine [.fail error] := by
  refine ⟨fun w he => ?_⟩
  rw [Script.run, Step.run, Outcome.failed, Outcome.andThen_of_error rfl] at he
  cases he

/-- What stands in front of a script that ends a line may be anything. -/
lemma behind (h : EndsLine t) (s : Script) : EndsLine (s ++ t) := by
  refine ⟨fun w he => ?_⟩
  rw [Script.run_append] at he ⊢
  cases hs : (Script.run s w).error with
  | some e =>
    rw [Outcome.andThen_of_error hs, hs] at he
    cases he
  | none =>
    rw [Outcome.andThen_of_no_error hs] at he ⊢
    exact h.run _ he

lemma cons (h : EndsLine t) (step : Step) : EndsLine (step :: t) := h.behind [step]

/-- What comes behind it has to end a line, or to be nothing. -/
lemma extend (hs : EndsLine s) (ht : t = [] ∨ EndsLine t) : EndsLine (s ++ t) := by
  rcases ht with rfl | ht
  · rwa [List.append_nil]
  · exact ht.behind s

lemma flatMap {α : Type} {script : α → Script} {as : List α} (hs : EndsLine s)
    (h : ∀ a ∈ as, EndsLine (script a)) : EndsLine (s ++ as.flatMap script) := by
  induction as generalizing s with
  | nil => exact hs.extend (.inl rfl)
  | cons a as ih =>
    obtain ⟨ha, has⟩ := List.forall_mem_cons.1 h
    rw [List.flatMap_cons, ← List.append_assoc]
    exact ih (ha.behind s) has

lemma registered {σ α : Type} {register : σ → α → σ × Option Rejection} {script : α → Script}
    {as : List α} (hs : EndsLine s) (h : ∀ a ∈ as, EndsLine (script a)) (scope : σ) :
    EndsLine (s ++ (registered register script scope as).1) := by
  induction as generalizing s scope with
  | nil => exact hs.extend (.inl rfl)
  | cons a as ih =>
    obtain ⟨ha, has⟩ := List.forall_mem_cons.1 h
    rw [registered_cons, ← List.append_assoc]
    exact ih ((ha.behind _).behind s) has _

lemma literal (before : String) (literal : Except FormatError String) {after : String}
    (h : Ends after) :
    EndsLine [.literal before literal after] := by
  cases literal with
  | ok text => exact emit (h.append _)
  | error e => exact fail _

lemma numbered (numbers : List Int) {text : String} (h : Ends text) :
    EndsLine [.numbered numbers text] := by
  rcases Step.numbered_eq numbers text with he | he
  · exact he ▸ emit h
  · exact he ▸ fail _

lemma scope (header : String) (sections : List Script) : EndsLine (scope header sections) :=
  ((emit ⟨['\x7d'], rfl⟩).behind _).cons _

end EndsLine

end Print

/-! ### Nodes -/

lemma endsLine_lineScript (comment : List String) (number : Int) (text : String)
    (options : List OptionDecl) : EndsLine (lineScript comment number text options) :=
  (((EndsLine.emit ⟨[';'], rfl⟩).behind _).cons _).cons _

lemma OptionDecl.endsLine {o : OptionDecl} (h : o.target.isInline = false) : EndsLine o.script := by
  have hs : EndsLine o.statementScript := by
    unfold statementScript
    split
    · exact .literal _ _ ⟨[';'], rfl⟩
    · have he : EndsLine [.unindent none, .emit "\x7d;\n"] :=
        (EndsLine.emit ⟨['\x7d', ';'], rfl⟩).cons _
      exact ((he.behind _).cons _).cons _
  rw [script, if_neg (by simp [h])]
  exact hs.cons _

lemma Reservation.endsLine (r : Reservation) : EndsLine r.script :=
  (EndsLine.numbered _ (Ends.append ⟨[';'], rfl⟩ _)).cons _

lemma Import.endsLine (i : Import) : EndsLine i.script :=
  .emit (Ends.append ⟨['"', ';'], rfl⟩ _)

lemma Method.endsLine (m : Method) : EndsLine m.script := by
  unfold script
  refine EndsLine.cons (.cons ?_ _) _
  split
  · exact .emit ⟨[';'], rfl⟩
  · have he : EndsLine [.unindent none, .emit "\x7d\n"] :=
      (EndsLine.emit ⟨['\x7d'], rfl⟩).cons _
    exact ((he.behind _).cons _).cons _

lemma Message.endsLine (m : Message) : EndsLine m.script := by
  rw [script_eq]
  exact (EndsLine.scope _ _).cons _

lemma Declaration.endsLine (d : Declaration) : EndsLine d.script := by
  cases d with
  | message m => exact m.endsLine
  | enum e => exact (EndsLine.scope _ _).cons _
  | service s => exact (EndsLine.scope _ _).cons _
  | extension e => exact (EndsLine.scope _ _).cons _

lemma Declaration.endsLine_blocksScript {s : Script} (hs : EndsLine s) (scope : TypeScope)
    (blocks : List (List Declaration)) : EndsLine (s ++ blocksScript scope blocks) := by
  induction blocks generalizing s scope with
  | nil => exact hs.extend (.inl rfl)
  | cons b bs ih =>
    have hn : EndsLine (s ++ [.emit "\n"]) := (EndsLine.emit ⟨[], rfl⟩).behind s
    have hb : EndsLine (s ++ [.emit "\n"] ++ (registered register script scope b).1) :=
      hn.registered (fun d _ => d.endsLine) scope
    simpa [blocksScript] using ih hb (registered register script scope b).2

lemma File.endsLine_part {α : Type} {script : α → Script} {elements : List α}
    (h : ∀ a ∈ elements, EndsLine (script a)) :
    part elements script = [] ∨ EndsLine (part elements script) := by
  unfold part
  split
  · exact .inl rfl
  · exact .inr ((EndsLine.emit ⟨[], rfl⟩).flatMap h)

lemma File.endsLine_packageScript (f : File) :
    f.packageScript = [] ∨ EndsLine f.packageScript := by
  unfold packageScript
  split
  · exact .inl rfl
  · exact .inr (.emit (Ends.append ⟨[';'], rfl⟩ _))

lemma File.endsLine {f : File} (h : f.WellFormed) : EndsLine f.script := by
  have hi : part f.imports Import.script = [] ∨ EndsLine (part f.imports Import.script) :=
    endsLine_part fun i _ => i.endsLine
  have ho : part f.options OptionDecl.script = [] ∨
      EndsLine (part f.options OptionDecl.script) := by
    refine endsLine_part fun o hm => OptionDecl.endsLine ?_
    rw [(h.options o hm).target]
    rfl
  have hs : EndsLine [.emit "syntax = \"proto3\";\n"] :=
    .emit ⟨"syntax = \"proto3\";".toList, rfl⟩
  have hp := ((hs.extend f.endsLine_packageScript).extend hi).extend ho
  simpa [script] using (Declaration.endsLine_blocksScript hp {} f.blocks).cons (.comment f.comment)

namespace Node

lemma endsLine {n : Node} (hw : n.WellFormed) (hi : ¬ n.IsInline) : EndsLine n.script := by
  cases n with
  | bare => exact .fail _
  | option o => exact OptionDecl.endsLine (by simpa [IsInline] using hi)
  | reservation r => exact r.endsLine
  | imported i => exact i.endsLine
  | field f => exact endsLine_lineScript ..
  | mapField f => exact endsLine_lineScript ..
  | oneof o => exact (EndsLine.scope _ _).cons _
  | enumValue v => exact endsLine_lineScript ..
  | enum e => exact (EndsLine.scope _ _).cons _
  | message m => exact m.endsLine
  | method m => exact m.endsLine
  | service s => exact (EndsLine.scope _ _).cons _
  | extension e => exact (EndsLine.scope _ _).cons _
  | file f => exact File.endsLine hw

/-- The lines of a node end where they are at an end, at the level where they began. -/
lemma writer_emit {n : Node} (hw : n.WellFormed) (hi : ¬ n.IsInline) {w : Writer}
    (hc : w.comment = false) (he : (n.emit w).error = none) :
    (n.emit w).writer = fresh w.style w.level false := by
  have hs : AtStart (n.emit w).writer := (endsLine hw hi).run w he
  obtain ⟨hcw, hst⟩ := Script.keeps (kept_plain w.style) n.script ⟨hc, rfl⟩
  have hl : (n.emit w).writer.level = w.level :=
    (n.balanced.runs w).level ((n.balanced.runs w).error.symm.trans he)
  rw [AtStart, hl] at hs
  rw [hs]
  exact congrArg₂ (fresh · w.level ·) hst hcw

/-- Writes nodes one after another, up to the first that fails. -/
def emitAll : List Node → Writer → Outcome PrintError
  | [], w => ⟨[], w, none⟩
  | n :: ns, w => (n.emit w).andThen (emitAll ns)

/-- **Composition**: a node that is written without an error leaves the writer at the start of a
line, outside of comments and at the level it had, whatever state it was in and wherever the node
started. So nodes that are written one after another on a new writer are the texts that they are on
their own. -/
theorem emit_composes :
    (∀ n : Node, n.WellFormed → ¬ n.IsInline → ∀ w : Writer, w.comment = false →
      (n.emit w).error = none → (n.emit w).writer = fresh w.style w.level false) ∧
    ∀ (style : Style) (ns : List Node) (texts : List String),
      (∀ n ∈ ns, n.WellFormed ∧ ¬ n.IsInline) → ns.map (print · style) = texts.map .ok →
      emitAll ns (.ofStyle style) = ⟨texts.flatMap String.toList, .ofStyle style, none⟩ := by
  refine ⟨fun n hw hi w hc he => writer_emit hw hi hc he, fun style ns texts hns hts => ?_⟩
  induction ns generalizing texts with
  | nil =>
    obtain rfl : texts = [] := by simpa using hts.symm
    rfl
  | cons n ns ih =>
    obtain ⟨⟨hw, hi⟩, hns⟩ := List.forall_mem_cons.1 hns
    cases texts with
    | nil => simp at hts
    | cons text texts =>
      obtain ⟨hp, hts⟩ := List.cons.inj hts
      obtain ⟨hf, ht⟩ := print_eq_ok.1 hp
      have he : (n.emit (.ofStyle style)).error = none := (n.error_emit _).trans hf
      have hv : (n.emit (.ofStyle style)).writer = .ofStyle style := writer_emit hw hi rfl he
      rw [emitAll, Outcome.andThen_of_no_error he, hv, ih texts hns hts, List.flatMap_cons, ← ht,
        String.toList_ofList]

/-- An import and a method with an option; the method also on a writer in the middle of a line. -/
theorem emit_composes_method :
    let cost : OptionDecl := ⟨.method, "cost", [], .literal .int32 (.int 1)⟩
    let m : Node :=
      method { name := "Get", request := "Key", response := "Item", options := [cost] }
    let ns : List Node := [imported ⟨"item.proto", .plain⟩, m]
    let texts := ["import \"item.proto\";\n",
      "rpc Get (Key) returns (Item) \x7b\n  option (cost) = 1;\n\x7d\n"]
    let w : Writer := { style := .usual, cursor := ⟨9, [' ']⟩, level := 3, lineStart := false }
    (∀ n ∈ ns, n.WellFormed ∧ ¬ n.IsInline) ∧ w.comment = false ∧
      (m.emit w).error = none ∧
      (m.emit w).writer = fresh .usual 3 false ∧ ns.map (print · .usual) = texts.map .ok ∧
      emitAll ns (.ofStyle .usual) = ⟨texts.flatMap String.toList, .ofStyle .usual, none⟩ := by
  intro cost m ns texts w
  have hi : Import.WellFormed ⟨"item.proto", .plain⟩ := ⟨"item".toList, by decide⟩
  have ho : cost.WellFormed .method := ⟨rfl, fun h => absurd h (by decide), rfl⟩
  have hm : m.WellFormed := ⟨List.forall_mem_singleton.2 ho⟩
  have hns : ∀ n ∈ ns, n.WellFormed ∧ ¬ n.IsInline :=
    List.forall_mem_cons.2 ⟨⟨hi, fun h => h⟩, List.forall_mem_singleton.2 ⟨hm, fun h => h⟩⟩
  have hf : m.script.fault? = none := rfl
  have he : (m.emit w).error = none := (m.error_emit w).trans hf
  have hpi : (imported ⟨"item.proto", .plain⟩).print .usual = .ok "import \"item.proto\";\n" :=
    print_eq_ok.2 ⟨rfl, by decide +kernel⟩
  have hpm : m.print .usual =
      .ok "rpc Get (Key) returns (Item) \x7b\n  option (cost) = 1;\n\x7d\n" :=
    print_eq_ok.2 ⟨hf, by decide +kernel⟩
  have hts : ns.map (print · .usual) = texts.map .ok := by
    rw [List.map_cons, List.map_singleton, hpi, hpm]
    rfl
  exact ⟨hns, rfl, he, emit_composes.1 m hm (fun h => h) w rfl he, hts,
    emit_composes.2 .usual ns texts hns hts⟩

end Node

end ProtoSchema
