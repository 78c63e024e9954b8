import ProtoSchema.Proofs.Fault
import ProtoSchema.Proofs.Tree

/-!
The scripts of all nodes are balanced.

So what a node fails with depends neither on the style nor on the state of the writer: it is the
first fault of its script.
-/

namespace ProtoSchema

open Layout Print Usage

namespace Print

namespace Balanced

lemma append {a b : Script} (ha : Balanced a) (hb : Balanced b) : Balanced (a ++ b) := by
  induction ha with
  | nil => exact hb
  | emit text _ ih => exact .emit text ih
  | comment lines _ ih => exact .comment lines ih
  | fail he _ ih => exact .fail he ih
  | body hc _ _ ih => exact .body hc ih
  | indented hc _ _ ih =>
    rw [List.cons_append, List.append_assoc, List.cons_append]
    exact .indented hc ih

lemma flatten {ss : List Script} (h : ∀ s ∈ ss, Balanced s) : Balanced ss.flatten := by
  induction ss with
  | nil => exact .nil
  | cons s ss ih =>
    rw [List.flatten_cons]
    exact (h s List.mem_cons_self).append (ih fun t ht => h t (List.mem_cons_of_mem s ht))

lemma flatMap {α : Type} {script : α → Script} {as : List α} (h : ∀ a ∈ as, Balanced (script a)) :
    Balanced (as.flatMap script) := by
  refine flatten fun s hs => ?_
  obtain ⟨a, ha, rfl⟩ := List.mem_map.1 hs
  exact h a ha

lemma intercalate {between : Script} {ss : List Script} (hb : Balanced between)
    (h : ∀ s ∈ ss, Balanced s) : Balanced (between.intercalate ss) := by
  induction ss with
  | nil => exact .nil
  | cons s ss ih =>
    have hs := h s List.mem_cons_self
    by_cases hn : ss = []
    · rw [hn, List.intercalate_singleton]
      exact hs
    · rw [List.intercalate_cons_of_ne_nil hn]
      exact (hs.append hb).append (ih fun t ht => h t (List.mem_cons_of_mem s ht))

lemma literal (before : String) (literal : Except FormatError String) (after : String) {s : Script}
    (h : Balanced s) : Balanced (.literal before literal after :: s) := by
  cases literal with
  | ok text => exact .emit _ h
  | error e => exact .fail (by simp) h

lemma numbered (numbers : List Int) (text : String) {s : Script} (h : Balanced s) :
    Balanced (.numbered numbers text :: s) := by
  rcases Step.numbered_eq numbers text with he | he
  · exact he ▸ .emit _ h
  · exact he ▸ .fail (by simp) h

lemma guard (r : Option Rejection) : Balanced (guard r) := by
  cases r with
  | none => exact .nil
  | some r => exact .fail (by cases r <;> simp [PrintError.ofRejection]) .nil

lemma scope {header : String} {sections : List Script} (h : ∀ s ∈ sections, Balanced s) :
    Balanced (scope header sections) := by
  have hs : Balanced (sections.flatMap fun s => [.emit "\n", .body s]) :=
    flatMap fun s hs => .emit _ (.body (h s hs) .nil)
  refine .emit _ (append (append ?_ hs) (.emit _ .nil))
  split
  · exact .nil
  · exact .emit _ .nil

lemma sectionFor {α : Type} {elements : List α} {script : Script} (h : Balanced script) :
    ∀ s ∈ sectionFor elements script, Balanced s := by
  intro s hs
  unfold Print.sectionFor at hs
  split at hs
  · simp at hs
  · rwa [List.mem_singleton.1 hs]

lemma registered {σ α : Type} {register : σ → α → σ × Option Rejection} {script : α → Script}
    {as : List α} (h : ∀ a ∈ as, Balanced (script a)) (s : σ) :
    Balanced (registered register script s as).1 := by
  induction as generalizing s with
  | nil => exact .nil
  | cons a as ih =>
    rw [registered_cons]
    exact ((guard _).append (h a List.mem_cons_self)).append
      (ih (fun b hb => h b (List.mem_cons_of_mem a hb)) _)

end Balanced

end Print

/-! ### Declarations on a line -/

lemma OptionDecl.balanced_entries (entries : List OptionEntry) (after : String) :
    Balanced (entries.map (OptionEntry.step · after)) := by
  induction entries with
  | nil => exact .nil
  | cons e entries ih => exact .literal _ _ _ ih

lemma OptionDecl.balanced_inlineScript (o : OptionDecl) : Balanced o.inlineScript := by
  unfold inlineScript
  split
  · exact .literal _ _ _ .nil
  · exact .emit _ ((balanced_entries _ _).append (.emit _ .nil))

lemma OptionDecl.balanced_statementScript (o : OptionDecl) : Balanced o.statementScript := by
  unfold statementScript
  split
  · exact .literal _ _ _ .nil
  · exact .emit _ (.indented (balanced_entries _ _) (.emit _ .nil))

lemma OptionDecl.balanced (o : OptionDecl) : Balanced o.script := by
  unfold script
  split
  · exact o.balanced_inlineScript
  · exact .comment _ o.balanced_statementScript

lemma OptionDecl.balanced_bracketScript (options : List OptionDecl) :
    Balanced (bracketScript options) := by
  unfold bracketScript
  split
  · exact .nil
  · refine .emit _ (.append (.intercalate (.emit _ .nil) fun s hs => ?_) (.emit _ .nil))
    obtain ⟨o, -, rfl⟩ := List.mem_map.1 hs
    exact o.balanced_inlineScript

lemma balanced_lineScript (comment : List String) (number : Int) (text : String)
    (options : List OptionDecl) : Balanced (lineScript comment number text options) :=
  .comment _ (.numbered _ _ ((OptionDecl.balanced_bracketScript options).append (.emit _ .nil)))

lemma Field.balanced (f : Field) : Balanced f.script := balanced_lineScript ..

lemma MapField.balanced (f : MapField) : Balanced f.script := balanced_lineScript ..

lemma EnumValue.balanced (v : EnumValue) : Balanced v.script := balanced_lineScript ..

lemma Reservation.balanced (r : Reservation) : Balanced r.script :=
  .comment _ (.numbered _ _ .nil)

lemma Import.balanced (i : Import) : Balanced i.script := .emit _ .nil

/-! ### Declarations with a body -/

lemma balanced_optionSection (options : List OptionDecl) :
    ∀ s ∈ optionSection options, Balanced s :=
  .sectionFor (.flatMap fun o _ => o.balanced)

lemma balanced_reservedScript (reservations : List Reservation) :
    Balanced (reservedScript reservations).1 :=
  .registered (fun r _ => r.balanced) _

lemma balanced_fieldScript {α : Type} {identity : α → FieldIdentity} {script : α → Script}
    (h : ∀ a, Balanced (script a)) (s : FieldScope) (as : List α) :
    Balanced (fieldScript identity script s as) :=
  .registered (fun a _ => h a) _

lemma Oneof.balanced (o : Oneof) : Balanced o.script := by
  refine .comment _ (.scope fun s hs => ?_)
  rcases List.mem_append.1 hs with hs | hs
  · exact balanced_optionSection _ s hs
  · exact Balanced.sectionFor (.flatMap fun f _ => f.balanced) s hs

lemma EnumDecl.balanced (e : EnumDecl) : Balanced e.script := by
  refine .comment _ (.scope fun s hs => ?_)
  simp only [List.mem_append] at hs
  rcases hs with (hs | hs) | hs
  · exact balanced_optionSection _ s hs
  · exact Balanced.sectionFor (balanced_reservedScript _) s hs
  · exact Balanced.sectionFor (balanced_fieldScript EnumValue.balanced _ _) s hs

lemma Method.balanced (m : Method) : Balanced m.script := by
  refine .comment _ (.emit _ ?_)
  split
  · exact .emit _ .nil
  · exact .emit _ (.indented (.flatMap fun o _ => o.balanced) (.emit _ .nil))

lemma Service.balanced (s : Service) : Balanced s.script := by
  refine .comment _ (.scope fun t ht => ?_)
  rcases List.mem_append.1 ht with ht | ht
  · exact balanced_optionSection _ t ht
  · exact Balanced.sectionFor (balanced_fieldScript Method.balanced _ _) t ht

lemma Extension.balanced (e : Extension) : Balanced e.script :=
  .comment _ (.scope (.sectionFor (balanced_fieldScript Field.balanced _ _)))

/-! ### Nested declarations -/

lemma Member.balanced_sections {blocks : List (List Member)}
    (h : ∀ m ∈ blocks.flatten, Balanced m.script) (s : MemberScope) :
    ∀ t ∈ Member.sections s blocks, Balanced t := by
  induction blocks generalizing s with
  | nil => simp [Member.sections]
  | cons b bs ih =>
    simp only [List.flatten_cons, List.mem_append] at h
    simp only [Member.sections, Member.blockScript_eq, List.mem_cons]
    rintro t (rfl | ht)
    · exact .registered (fun m hm => h m (.inl hm)) _
    · exact ih (fun m hm => h m (.inr hm)) _ t ht

theorem Message.balanced (m : Message) : Balanced m.script := by
  induction m using Message.induction with
  | step m ih =>
    have hm : ∀ x ∈ m.blocks.flatten, Balanced x.script := by
      rintro (f | f | o | n | e) hx
      · exact f.balanced
      · exact f.balanced
      · exact o.balanced
      · exact ih n hx
      · exact e.balanced
    rw [Message.script_eq]
    refine .comment _ (.scope fun s hs => ?_)
    simp only [List.mem_append] at hs
    rcases hs with (hs | hs) | hs
    · exact balanced_optionSection _ s hs
    · exact Balanced.sectionFor (balanced_reservedScript _) s hs
    · exact Member.balanced_sections hm _ s hs

lemma Declaration.balanced (d : Declaration) : Balanced d.script := by
  cases d with
  | message m => exact m.balanced
  | enum e => exact e.balanced
  | service s => exact s.balanced
  | extension e => exact e.balanced

lemma Declaration.balanced_blocksScript (s : TypeScope) (blocks : List (List Declaration)) :
    Balanced (blocksScript s blocks) := by
  induction blocks generalizing s with
  | nil => exact .nil
  | cons b bs ih =>
    exact .emit _ ((Balanced.registered (fun d _ => d.balanced) s).append (ih _))

lemma File.balanced_part {α : Type} {script : α → Script} (h : ∀ a, Balanced (script a))
    (elements : List α) : Balanced (part elements script) := by
  unfold part
  split
  · exact .nil
  · exact .emit _ (.flatMap fun a _ => h a)

lemma File.balanced_packageScript (f : File) : Balanced f.packageScript := by
  unfold packageScript
  split
  · exact .nil
  · exact .emit _ .nil

lemma File.balanced (f : File) : Balanced f.script := by
  refine .comment _ (.emit _ ?_)
  exact ((f.balanced_packageScript.append (balanced_part Import.balanced _)).append
    (balanced_part OptionDecl.balanced _)).append (Declaration.balanced_blocksScript _ _)

namespace Node

theorem balanced (n : Node) : Balanced n.script := by
  cases n with
  | bare => exact .fail (by simp) .nil
  | option o => exact o.balanced
  | reservation r => exact r.balanced
  | imported i => exact i.balanced
  | field f => exact f.balanced
  | mapField f => exact f.balanced
  | oneof o => exact o.balanced
  | enumValue v => exact v.balanced
  | enum e => exact e.balanced
  | message m => exact m.balanced
  | method m => exact m.balanced
  | service s => exact s.balanced
  | extension e => exact e.balanced
  | file f => exact f.balanced

/-- Whatever the state of the writer, a node fails with the first fault of its script. -/
theorem error_emit (n : Node) (w : Writer) : (n.emit w).error = n.script.fault? :=
  (n.balanced.runs w).error

lemma print_eq (n : Node) (style : Style) :
    n.print style = match n.script.fault? with
      | some e => .error e
      | none => .ok (String.ofList (n.emit (.ofStyle style)).text) := by
  cases h : n.script.fault? <;> simp [print, error_emit, h]

lemma print_eq_error {n : Node} {style : Style} {e : PrintError} :
    n.print style = .error e ↔ n.script.fault? = some e := by
  rw [print_eq]
  cases n.script.fault? <;> simp

lemma print_eq_ok {n : Node} {style : Style} {text : String} : n.print style = .ok text ↔
    n.script.fault? = none ∧ String.ofList (n.emit (.ofStyle style)).text = text := by
  rw [print_eq]
  cases n.script.fault? <;> simp

end Node

end ProtoSchema
