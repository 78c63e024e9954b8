import ProtoSchema.Proofs.Balance
import ProtoSchema.Proofs.Laid
import ProtoSchema.Proofs.Uniqueness

/-!
The text of a declaration as a document.

A document is a list of lines, put together from the documents of the parts: nothing in it depends
on a writer, and `step` is what one indent step looks like. Where all its lines have room, it is the
text of the declaration.
-/

namespace ProtoSchema

open Layout Print

/-! ### Options -/

/-- A literal, or nothing if there is none. -/
def literalText : Except FormatError String → String
  | .ok text => text
  | .error _ => ""

def OptionEntry.text (e : OptionEntry) : String := e.name ++ ": " ++ literalText e.literal

/-- The option as it stands in brackets. -/
def OptionDecl.inlineText (o : OptionDecl) : String :=
  match o.value with
  | .literal type value => o.writtenName ++ " = " ++ literalText (type.format value)
  | .entries es => o.writtenName ++ " = \x7b " ++ String.join (es.map (·.text ++ " ")) ++ "\x7d"

/-- The option as a statement. -/
def OptionDecl.doc (step : List Char) (o : OptionDecl) : List (List Char) :=
  commentDoc o.comment ++
    match o.value with
    | .literal type value =>
      textDoc ("option " ++ o.writtenName ++ " = " ++ literalText (type.format value) ++ ";")
    | .entries es =>
      textDoc ("option " ++ o.writtenName ++ " = \x7b") ++
        below step (es.flatMap fun e => textDoc e.text) ++ textDoc "\x7d;"

/-- Several options in brackets. -/
def bracketText (options : List OptionDecl) : String :=
  if options.isEmpty then ""
  else " [" ++ ", ".intercalate (options.map OptionDecl.inlineText) ++ "]"

/-! ### Declarations on a line -/

def lineDoc (comment : List String) (text : String) (options : List OptionDecl) :
    List (List Char) :=
  commentDoc comment ++ textDoc (text ++ bracketText options ++ ";")

def Field.doc (f : Field) : List (List Char) :=
  lineDoc f.comment
    (leading f.modifier.name ++ f.label ++ " " ++ f.name ++ " = " ++ toString f.number) f.options

def MapField.doc (f : MapField) : List (List Char) :=
  lineDoc f.comment
    ("map<" ++ f.keyType.name ++ ", " ++ f.valueLabel ++ "> " ++ f.name ++ " = " ++
      toString f.number)
    f.options

def EnumValue.doc (v : EnumValue) : List (List Char) :=
  lineDoc v.comment (v.name ++ " = " ++ toString v.number) v.options

def Reservation.doc (r : Reservation) : List (List Char) :=
  commentDoc r.comment ++ textDoc ("reserved " ++ ", ".intercalate r.items ++ ";")

def Import.doc (i : Import) : List (List Char) :=
  textDoc ("import " ++ leading i.modifier.name ++ "\"" ++ i.path ++ "\";")

/-! ### Declarations with a body -/

/-- A body in braces, each of its sections below an empty line. -/
def scopeDoc (step : List Char) (header : String) (sections : List (List (List Char))) :
    List (List Char) :=
  if sections.isEmpty then textDoc (header ++ " \x7b\x7d")
  else textDoc (header ++ " \x7b") ++ sections.flatMap (fun s => [] :: below step s) ++
    textDoc "\x7d"

/-- A section for some elements, unless there are none. -/
def sectionDoc {α : Type} (elements : List α) (doc : α → List (List Char)) :
    List (List (List Char)) :=
  if elements.isEmpty then [] else [elements.flatMap doc]

def Oneof.doc (step : List Char) (o : Oneof) : List (List Char) :=
  commentDoc o.comment ++ scopeDoc step ("oneof " ++ o.name)
    (sectionDoc o.options (OptionDecl.doc step) ++ sectionDoc o.members Field.doc)

def EnumDecl.doc (step : List Char) (e : EnumDecl) : List (List Char) :=
  commentDoc e.comment ++ scopeDoc step ("enum " ++ e.name)
    (sectionDoc e.options (OptionDecl.doc step) ++ sectionDoc e.reservations Reservation.doc ++
      sectionDoc e.values EnumValue.doc)

/-- The options of a method are a body behind its signature. -/
def Method.doc (step : List Char) (m : Method) : List (List Char) :=
  commentDoc m.comment ++
    if m.options.isEmpty then textDoc (m.signature ++ ";")
    else
      textDoc (m.signature ++ " \x7b") ++ below step (m.options.flatMap (OptionDecl.doc step)) ++
        textDoc "\x7d"

def Service.doc (step : List Char) (s : Service) : List (List Char) :=
  commentDoc s.comment ++ scopeDoc step ("service " ++ s.name)
    (sectionDoc s.options (OptionDecl.doc step) ++ sectionDoc s.methods (Method.doc step))

def Extension.doc (step : List Char) (e : Extension) : List (List Char) :=
  commentDoc e.comment ++ scopeDoc step ("extend " ++ e.typeName) (sectionDoc e.fields Field.doc)

/-! ### Nested declarations -/

mutual

def Message.doc (step : List Char) : Message → List (List Char)
  | ⟨name, comment, options, reservations, blocks⟩ =>
    commentDoc comment ++ scopeDoc step ("message " ++ name)
      (sectionDoc options (OptionDecl.doc step) ++ sectionDoc reservations Reservation.doc ++
        Member.blocksDoc step blocks)

def Member.doc (step : List Char) : Member → List (List Char)
  | .field f => f.doc
  | .map f => f.doc
  | .oneof o => o.doc step
  | .message m => Message.doc step m
  | .enum e => e.doc step

def Member.blockDoc (step : List Char) : List Member → List (List Char)
  | [] => []
  | m :: ms => Member.doc step m ++ Member.blockDoc step ms

/-- A section for each block. -/
def Member.blocksDoc (step : List Char) : List (List Member) → List (List (List Char))
  | [] => []
  | b :: bs => Member.blockDoc step b :: Member.blocksDoc step bs

end

def Declaration.doc (step : List Char) : Declaration → List (List Char)
  | .message m => m.doc step
  | .enum e => e.doc step
  | .service s => s.doc step
  | .extension e => e.doc step

/-- A part of a file below an empty line, unless there is nothing in it. -/
def partDoc {α : Type} (elements : List α) (doc : α → List (List Char)) : List (List Char) :=
  if elements.isEmpty then [] else [] :: elements.flatMap doc

def File.packageDoc (f : File) : List (List Char) :=
  match f.package with
  | none => []
  | some package => [] :: textDoc ("package " ++ package ++ ";")

def File.doc (step : List Char) (f : File) : List (List Char) :=
  commentDoc f.comment ++ textDoc "syntax = \"proto3\";" ++ f.packageDoc ++
    partDoc f.imports Import.doc ++ partDoc f.options (OptionDecl.doc step) ++
      f.blocks.flatMap fun block => [] :: block.flatMap (Declaration.doc step)

/-- The document of a node that is laid out in lines. -/
def Node.doc (step : List Char) : Node → List (List Char)
  | .bare => []
  | .option o => o.doc step
  | .reservation r => r.doc
  | .imported i => i.doc
  | .field f => f.doc
  | .mapField f => f.doc
  | .oneof o => o.doc step
  | .enumValue v => v.doc
  | .enum e => e.doc step
  | .message m => m.doc step
  | .method m => m.doc step
  | .service s => s.doc step
  | .extension e => e.doc step
  | .file f => f.doc step

/-! ### Scripts and documents -/

namespace Print

lemma literal_eq {literal : Except FormatError String} {before after : String}
    (h : (Step.literal before literal after).fault? = none) :
    Step.literal before literal after = .emit (before ++ literalText literal ++ after) := by
  cases literal with
  | ok text => rfl
  | error e => simp [Step.literal, Step.fault?] at h

lemma registered_eq_flatMap {σ α : Type} {register : σ → α → σ × Option Usage.Rejection}
    {script : α → Script} {s : σ} {as : List α}
    (h : Script.fault? (registered register script s as).1 = none) :
    (registered register script s as).1 = as.flatMap script := by
  induction as generalizing s with
  | nil => rfl
  | cons a as ih =>
    simp only [registered_cons, Script.fault?_append, fault?_guard, Option.or_eq_none_iff,
      Option.map_eq_none_iff] at h
    obtain ⟨⟨hg, -⟩, hr⟩ := h
    rw [registered_cons, ih hr, hg, List.flatMap_cons]
    rfl

lemma Shows.emit {text ended : String} (h : ended = text ++ "\n") :
    Shows [.emit ended] fun _ => textDoc text := .emits (h ▸ .single ended)

lemma Shows.blank : Shows [.emit "\n"] fun _ => textDoc "" := .emit rfl

lemma Shows.closing : Shows [.emit "\x7d\n"] fun _ => textDoc "\x7d" := .emit rfl

/-- A script for some elements, each of which is shown if it has no fault. -/
lemma Shows.elements {α : Type} {script : α → Script} {doc : List Char → α → List (List Char)}
    {as : List α} (hf : Script.fault? (as.flatMap script) = none)
    (h : ∀ a ∈ as, (script a).fault? = none → Shows (script a) (doc · a)) :
    Shows (as.flatMap script) fun step => as.flatMap (doc step) :=
  .flatMap fun a ha => h a ha (Script.fault?_flatMap_eq_none.1 hf a ha)

end Print

namespace OptionDecl

lemma emits_entries {entries : List OptionEntry} {after : String}
    (h : Script.fault? (entries.map (OptionEntry.step · after)) = none) :
    Emits (entries.map (OptionEntry.step · after))
      (String.join (entries.map (·.text ++ after))) := by
  induction entries with
  | nil => exact .nil
  | cons e entries ih =>
    rw [List.map_cons, Script.fault?_cons, Option.or_eq_none_iff] at h
    have he : e.step after = .emit (e.text ++ after) := literal_eq h.1
    rw [List.map_cons, List.map_cons, he, String.join_cons]
    exact (ih h.2).cons

lemma emits_inline {o : OptionDecl} (h : o.inlineScript.fault? = none) :
    Emits o.inlineScript o.inlineText := by
  unfold inlineScript at h ⊢
  unfold inlineText
  split
  · next type value he =>
    simp only [he] at h ⊢
    have hl : (Step.literal (o.writtenName ++ " = ") (type.format value) "").fault? = none := by
      simpa using h
    rw [literal_eq hl, String.append_empty]
    exact .single _
  · next es he =>
    simp only [he] at h ⊢
    have hes : Script.fault? (es.map (OptionEntry.step · " ")) = none := by
      simpa [Step.fault?] using h
    rw [String.append_assoc]
    exact ((emits_entries hes).append (.single "\x7d")).cons

lemma emits_bracket {options : List OptionDecl} (h : (bracketScript options).fault? = none) :
    Emits (bracketScript options) (bracketText options) := by
  unfold bracketScript at h ⊢
  unfold bracketText
  split
  · exact .nil
  · next hn =>
    rw [if_neg hn] at h
    have hi : Script.fault? (List.intercalate [.emit ", "] (options.map inlineScript)) = none := by
      simpa [Step.fault?] using h
    have he : Emits (List.intercalate [.emit ", "] (options.map inlineScript))
        (", ".intercalate (options.map inlineText)) := by
      clear h hn
      induction options with
      | nil => exact .nil
      | cons o os ih =>
        by_cases hos : os = []
        · subst hos
          simp only [List.map_cons, List.map_nil, List.intercalate_singleton,
            String.intercalate_singleton] at hi ⊢
          exact emits_inline hi
        · have hs : os.map inlineScript ≠ [] := by simpa using hos
          have ht : os.map inlineText ≠ [] := by simpa using hos
          rw [List.map_cons, List.intercalate_cons_of_ne_nil hs] at hi ⊢
          rw [List.map_cons, String.intercalate_cons_of_ne_nil ht]
          simp only [Script.fault?_append, Option.or_eq_none_iff] at hi
          exact ((emits_inline hi.1.1).append (.single ", ")).append (ih hi.2)
    rw [String.append_assoc]
    exact (he.append (.single "]")).cons

lemma shows_entries {entries : List OptionEntry}
    (h : Script.fault? (entries.map (OptionEntry.step · "\n")) = none) :
    Shows (entries.map (OptionEntry.step · "\n")) fun _ =>
      entries.flatMap fun e => textDoc e.text := by
  induction entries with
  | nil => exact .nil
  | cons e entries ih =>
    rw [List.map_cons, Script.fault?_cons, Option.or_eq_none_iff] at h
    have he : e.step "\n" = .emit (e.text ++ "\n") := literal_eq h.1
    rw [List.map_cons, he]
    exact (Shows.emit rfl).append (ih h.2)

lemma shows {o : OptionDecl} (ht : o.target.isInline = false) (h : o.script.fault? = none) :
    Shows o.script (OptionDecl.doc · o) := by
  rw [script, ht] at h ⊢
  have hs : Script.fault? o.statementScript = none := by simpa [Step.fault?] using h
  refine (Shows.comment o.comment).append ?_
  unfold statementScript at hs
  cases he : o.value with
  | literal type value =>
    simp only [he] at hs ⊢
    have hl : (Step.literal ("option " ++ o.writtenName ++ " = ") (type.format value)
        ";\n").fault? = none := by
      simpa using hs
    rw [literal_eq hl]
    exact .emit (by simp [String.append_assoc])
  | entries es =>
    simp only [he] at hs ⊢
    have hes : Script.fault? (es.map (OptionEntry.step · "\n")) = none := by
      simpa [Step.fault?] using hs
    have hb := (shows_entries hes).indented
    have ho : Shows [.emit ("option " ++ o.writtenName ++ " = \x7b\n")] fun _ =>
        textDoc ("option " ++ o.writtenName ++ " = \x7b") := .emit (by simp [String.append_assoc])
    have hc : Shows [.emit "\x7d;\n"] fun _ => textDoc "\x7d;" := .emit rfl
    have h := (ho.append hb).append hc
    simpa using h

end OptionDecl

/-! ### Declarations on a line and their documents -/

lemma fault?_lineScript_eq_none {comment : List String} {number : Int} {text : String}
    {options : List OptionDecl}
    (h : Script.fault? (lineScript comment number text options) = none) :
    Step.numbered [number] text = .emit text ∧
      Script.fault? (OptionDecl.bracketScript options) = none := by
  simp only [lineScript, Script.fault?_cons, Script.fault?_append, Option.or_eq_none_iff] at h
  exact ⟨Step.numbered_of_fault? h.2.1, h.2.2.1⟩

lemma shows_lineScript {comment : List String} {number : Int} {text : String}
    {options : List OptionDecl}
    (h : Script.fault? (lineScript comment number text options) = none) :
    Shows (lineScript comment number text options) fun _ => lineDoc comment text options := by
  obtain ⟨hn, hb⟩ := fault?_lineScript_eq_none h
  have he : Emits (.emit text :: (OptionDecl.bracketScript options ++ [.emit ";\n"]))
      (text ++ (bracketText options ++ ";\n")) :=
    ((OptionDecl.emits_bracket hb).append (.single ";\n")).cons
  have ht : text ++ (bracketText options ++ ";\n") =
      text ++ bracketText options ++ ";" ++ "\n" := by
    simp [String.append_assoc]
  rw [lineScript, hn]
  exact (Shows.comment comment).append (.emits (ht ▸ he))

lemma Reservation.shows {r : Reservation} (h : r.script.fault? = none) :
    Shows r.script fun _ => r.doc := by
  simp only [script, Script.fault?_cons, Option.or_eq_none_iff] at h ⊢
  rw [Step.numbered_of_fault? h.2.1]
  exact (Shows.comment r.comment).append (.emit (by simp [String.append_assoc]))

lemma Import.shows (i : Import) : Shows i.script fun _ => i.doc :=
  .emit (by simp [String.append_assoc])

/-! ### Declarations with a body and their documents -/

namespace Print

/-- Each of the sections is shown. -/
inductive ShowsEach : List Script → (List Char → List (List (List Char))) → Prop
  | nil : ShowsEach [] fun _ => []
  | cons {s : Script} {ss : List Script} {d : List Char → List (List Char)}
      {ds : List Char → List (List (List Char))} : Shows s d → ShowsEach ss ds →
      ShowsEach (s :: ss) fun step => d step :: ds step

namespace ShowsEach

variable {ss ts : List Script} {ds es : List Char → List (List (List Char))}

lemma append (hs : ShowsEach ss ds) (ht : ShowsEach ts es) :
    ShowsEach (ss ++ ts) fun step => ds step ++ es step := by
  induction hs with
  | nil => exact ht
  | cons h _ ih => exact .cons h ih

lemma sectionFor {α : Type} {elements : List α} {script : Script}
    {doc : List Char → α → List (List Char)}
    (h : Shows script fun step => elements.flatMap (doc step)) :
    ShowsEach (sectionFor elements script) fun step => sectionDoc elements (doc step) := by
  unfold Print.sectionFor sectionDoc
  by_cases he : elements.isEmpty
  · simp only [he, if_true]
    exact .nil
  · simp only [he]
    exact .cons h .nil

lemma bodies (h : ShowsEach ss ds) : Shows (ss.flatMap fun s => [.emit "\n", .body s]) fun step =>
    (ds step).flatMap fun s => [] :: Layout.below step s := by
  induction h with
  | nil => exact .nil
  | cons h _ ih =>
    exact (Shows.blank.append h.body).append ih

lemma isEmpty_eq (h : ShowsEach ss ds) (step : List Char) : (ds step).isEmpty = ss.isEmpty := by
  cases h <;> rfl

end ShowsEach

lemma Shows.scope {sections : List Script} {docs : List Char → List (List (List Char))}
    (h : ShowsEach sections docs) (header : String) :
    Shows (scope header sections) fun step => scopeDoc step header (docs step) := by
  unfold Print.scope scopeDoc
  simp only [h.isEmpty_eq]
  by_cases hs : sections.isEmpty
  · obtain rfl : sections = [] := by simpa using hs
    have he : Emits [.emit (header ++ " \x7b"), .emit "\x7d\n"] (header ++ " \x7b" ++ "\x7d\n") :=
      (Emits.single "\x7d\n").cons
    have ht : header ++ " \x7b" ++ "\x7d\n" = header ++ " \x7b\x7d" ++ "\n" := by
      simp [String.append_assoc]
    exact .emits (ht ▸ he)
  · simp only [hs]
    have ho : Shows [.emit (header ++ " \x7b"), .emit "\n"] fun _ => textDoc (header ++ " \x7b") :=
      .emits (Emits.single "\n").cons
    exact (ho.append h.bodies).append .closing

/-- A body behind a comment. -/
lemma Shows.declaration {sections : List Script} {docs : List Char → List (List (List Char))}
    (h : ShowsEach sections docs) (comment : List String) (header : String) :
    Shows (.comment comment :: Print.scope header sections) fun step =>
      commentDoc comment ++ scopeDoc step header (docs step) :=
  (Shows.comment comment).append (.scope h header)

end Print

lemma showsEach_elements {α : Type} {script : α → Script} {doc : List Char → α → List (List Char)}
    {as : List α} (hf : Script.fault? (sectionFor as (as.flatMap script)).flatten = none)
    (h : ∀ a ∈ as, (script a).fault? = none → Shows (script a) (doc · a)) :
    ShowsEach (sectionFor as (as.flatMap script)) fun step => sectionDoc as (doc step) := by
  rw [fault?_sectionFor (by rintro rfl; rfl)] at hf
  exact .sectionFor (.elements hf h)

lemma showsEach_registered {σ α : Type} {register : σ → α → σ × Option Usage.Rejection}
    {script : α → Script} {doc : List Char → α → List (List Char)} {s : σ} {as : List α}
    (hf : Script.fault? (sectionFor as (registered register script s as).1).flatten = none)
    (h : ∀ a ∈ as, (script a).fault? = none → Shows (script a) (doc · a)) :
    ShowsEach (sectionFor as (registered register script s as).1) fun step =>
      sectionDoc as (doc step) := by
  have hr : (registered register script s as).1.fault? = none := by
    rwa [fault?_sectionFor (by rintro rfl; rfl)] at hf
  rw [registered_eq_flatMap hr] at hf ⊢
  exact showsEach_elements hf h

lemma showsEach_options {target : OptionTarget} (hi : target.isInline = false)
    {options : List OptionDecl} (hw : ∀ o ∈ options, o.WellFormed target)
    (hf : Script.fault? (optionSection options).flatten = none) :
    ShowsEach (optionSection options) fun step => sectionDoc options (OptionDecl.doc step) :=
  showsEach_elements hf fun o ho h => o.shows ((hw o ho).target ▸ hi) h

lemma fault?_declaration (comment : List String) (header : String) (sections : List Script) :
    Script.fault? (.comment comment :: scope header sections) = Script.fault? sections.flatten := by
  rw [Script.fault?_cons, fault?_scope]
  rfl

lemma Oneof.shows {o : Oneof} (hw : o.WellFormed) (hf : o.script.fault? = none) :
    Shows o.script (Oneof.doc · o) := by
  rw [Oneof.script, fault?_declaration, List.flatten_append, Script.fault?_append,
    Option.or_eq_none_iff] at hf
  have ho := showsEach_options rfl hw.options hf.1
  exact .declaration (ho.append (showsEach_elements hf.2 fun _ _ h => shows_lineScript h)) _ _

lemma EnumDecl.shows {e : EnumDecl} (hw : e.WellFormed) (hf : e.script.fault? = none) :
    Shows e.script (EnumDecl.doc · e) := by
  rw [EnumDecl.script, fault?_declaration, List.flatten_append, List.flatten_append,
    Script.fault?_append, Script.fault?_append, Option.or_eq_none_iff, Option.or_eq_none_iff] at hf
  obtain ⟨⟨ho, hr⟩, hv⟩ := hf
  have hos := showsEach_options rfl hw.options ho
  have hrs := showsEach_registered hr fun _ _ h => Reservation.shows h
  have hvs := showsEach_registered hv fun v _ h => shows_lineScript h
  exact .declaration ((hos.append hrs).append hvs) _ _

lemma Method.shows {m : Method} (hw : m.WellFormed) (hf : m.script.fault? = none) :
    Shows m.script (Method.doc · m) := by
  refine (Shows.comment m.comment).append ?_
  unfold Method.script at hf
  by_cases he : m.options.isEmpty
  · simp only [he, if_true]
    have hs : Emits [.emit m.signature, .emit ";\n"] (m.signature ++ ";\n") :=
      (Emits.single ";\n").cons
    have ht : m.signature ++ ";\n" = m.signature ++ ";" ++ "\n" := by simp [String.append_assoc]
    exact .emits (ht ▸ hs)
  · have ho : Script.fault? (m.options.flatMap OptionDecl.script) = none := by
      simpa [he, Step.fault?] using hf
    have hs : Emits [.emit m.signature, .emit " \x7b\n"] (m.signature ++ " \x7b\n") :=
      (Emits.single " \x7b\n").cons
    have ht : m.signature ++ " \x7b\n" = m.signature ++ " \x7b" ++ "\n" := by
      simp [String.append_assoc]
    have hb : Shows (m.options.flatMap OptionDecl.script) fun step =>
        m.options.flatMap (OptionDecl.doc step) :=
      .elements ho fun o hm h => o.shows ((hw.options o hm).target ▸ rfl) h
    have h := ((Shows.emits (ht ▸ hs)).append hb.indented).append .closing
    simp only [he]
    simpa using h

lemma Service.shows {s : Service} (hw : s.WellFormed) (hf : s.script.fault? = none) :
    Shows s.script (Service.doc · s) := by
  rw [Service.script, fault?_declaration, List.flatten_append, Script.fault?_append,
    Option.or_eq_none_iff] at hf
  have ho := showsEach_options rfl hw.options hf.1
  have hm := showsEach_registered hf.2 fun m hm h => Method.shows (hw.methods m hm) h
  exact .declaration (ho.append hm) _ _

lemma Extension.shows {e : Extension} (hf : e.script.fault? = none) :
    Shows e.script (Extension.doc · e) := by
  rw [Extension.script, fault?_declaration] at hf
  exact .declaration (showsEach_registered hf fun f _ h => shows_lineScript h) _ _

/-! ### Nested declarations and their documents -/

lemma Member.blockDoc_eq (step : List Char) (ms : List Member) :
    Member.blockDoc step ms = ms.flatMap (Member.doc step) := by
  induction ms with
  | nil => rfl
  | cons m ms ih => rw [blockDoc, ih, List.flatMap_cons]

lemma Message.doc_eq (step : List Char) (m : Message) :
    m.doc step = commentDoc m.comment ++ scopeDoc step ("message " ++ m.name)
      (sectionDoc m.options (OptionDecl.doc step) ++ sectionDoc m.reservations Reservation.doc ++
        Member.blocksDoc step m.blocks) := by
  cases m
  rfl

lemma Member.showsEach_sections {blocks : List (List Member)} {s : MemberScope}
    (hf : Script.fault? (Member.sections s blocks).flatten = none)
    (h : ∀ m ∈ blocks.flatten, (Member.script m).fault? = none → Shows m.script (Member.doc · m)) :
    ShowsEach (Member.sections s blocks) (Member.blocksDoc · blocks) := by
  induction blocks generalizing s with
  | nil => exact .nil
  | cons b bs ih =>
    simp only [Member.sections, Member.blockScript_eq, List.flatten_cons, Script.fault?_append,
      Option.or_eq_none_iff] at hf ⊢
    obtain ⟨hb, hbs⟩ := hf
    rw [List.flatten_cons, List.forall_mem_append] at h
    have he := registered_eq_flatMap hb
    rw [he] at hb
    simp only [Member.blocksDoc, Member.blockDoc_eq, he]
    exact .cons (.elements hb h.1) (ih hbs h.2)

lemma Message.shows {m : Message} (hw : m.WellFormed) (hf : m.script.fault? = none) :
    Shows m.script (Message.doc · m) := by
  induction m using Message.induction with
  | step m ih =>
    have hm : ∀ x ∈ m.blocks.flatten, (Member.script x).fault? = none →
        Shows x.script (Member.doc · x) := by
      intro x hx hfx
      have hwx := hw.members x hx
      cases hwx with
      | field h => exact shows_lineScript hfx
      | map h => exact shows_lineScript hfx
      | oneof h => exact Oneof.shows h hfx
      | message h => exact ih _ hx h hfx
      | enum h => exact EnumDecl.shows h hfx
    rw [Message.script_eq, fault?_declaration, List.flatten_append, List.flatten_append,
      Script.fault?_append, Script.fault?_append, Option.or_eq_none_iff,
      Option.or_eq_none_iff] at hf
    obtain ⟨⟨ho, hr⟩, hb⟩ := hf
    have hos := showsEach_options rfl hw.options ho
    have hrs := showsEach_registered hr fun _ _ h => Reservation.shows h
    have hbs := Member.showsEach_sections hb hm
    simp only [Message.script_eq, Message.doc_eq]
    exact .declaration ((hos.append hrs).append hbs) _ _

lemma Declaration.shows {d : Declaration} (hw : d.WellFormed) (hf : d.script.fault? = none) :
    Shows d.script (Declaration.doc · d) := by
  cases d with
  | message m => exact Message.shows hw hf
  | enum e => exact EnumDecl.shows hw hf
  | service s => exact Service.shows hw hf
  | extension e => exact Extension.shows hf

lemma Declaration.shows_blocksScript {blocks : List (List Declaration)} {s : Usage.TypeScope}
    (hw : ∀ d ∈ blocks.flatten, d.WellFormed) (hf : (blocksScript s blocks).fault? = none) :
    Shows (blocksScript s blocks) fun step =>
      blocks.flatMap fun block => [] :: block.flatMap (Declaration.doc step) := by
  induction blocks generalizing s with
  | nil => exact .nil
  | cons b bs ih =>
    simp only [blocksScript, Script.fault?_cons, Script.fault?_append,
      Option.or_eq_none_iff] at hf ⊢
    obtain ⟨-, hb, hbs⟩ := hf
    rw [List.flatten_cons, List.forall_mem_append] at hw
    have he := registered_eq_flatMap hb
    rw [he] at hb ⊢
    have hd : Shows (b.flatMap script) fun step => b.flatMap (Declaration.doc step) :=
      .elements hb fun d hd h => Declaration.shows (hw.1 d hd) h
    exact (Shows.blank.append hd).append (ih hw.2 hbs)

namespace File

lemma shows_part {α : Type} {elements : List α} {script : α → Script}
    {doc : List Char → α → List (List Char)} (hf : Script.fault? (part elements script) = none)
    (h : ∀ a ∈ elements, (script a).fault? = none → Shows (script a) (doc · a)) :
    Shows (part elements script) fun step => partDoc elements (doc step) := by
  unfold part partDoc
  by_cases he : elements.isEmpty
  · simp only [he, if_true]
    exact .nil
  · have hs : Script.fault? (elements.flatMap script) = none := by
      simpa [part, he, Step.fault?] using hf
    simp only [he]
    exact Shows.blank.append (.elements hs h)

lemma shows_package (f : File) : Shows f.packageScript fun _ => f.packageDoc := by
  unfold packageScript packageDoc
  cases f.package with
  | none => exact .nil
  | some package =>
    have he : "\npackage " ++ package ++ ";\n" =
        "\n" ++ ("package " ++ package ++ ";") ++ "\n" := by
      have hp : "\npackage " = "\n" ++ "package " := rfl
      have hq : ";\n" = ";" ++ "\n" := rfl
      rw [hp, hq]
      simp only [String.append_assoc]
    have hd : textDoc ("\n" ++ ("package " ++ package ++ ";")) =
        [] :: textDoc ("package " ++ package ++ ";") := by
      rw [textDoc, String.toList_append]
      exact lines_cons_newline _
    have hs := Shows.emit he
    rwa [hd] at hs

lemma shows {f : File} (hw : f.WellFormed) (hf : f.script.fault? = none) :
    Shows f.script (File.doc · f) := by
  simp only [File.script, Script.fault?_cons, Script.fault?_append, Option.or_eq_none_iff] at hf
  obtain ⟨-, -, ⟨⟨-, hi⟩, ho⟩, hb⟩ := hf
  have hs : Shows [.emit "syntax = \"proto3\";\n"] fun _ => textDoc "syntax = \"proto3\";" :=
    .emit rfl
  have his := shows_part hi fun i _ _ => i.shows
  have hos := shows_part ho fun o hm h => o.shows ((hw.options o hm).target ▸ rfl) h
  have hbs := Declaration.shows_blocksScript hw.declarations hb
  have h := (Shows.comment f.comment).append
    (hs.append (((f.shows_package.append his).append hos).append hbs))
  simpa [File.script, File.doc] using h

end File

namespace Node

/-- A node that stands in brackets behind another. -/
def IsInline : Node → Prop
  | .option o => o.target.isInline
  | _ => False

theorem shows {n : Node} (hw : n.WellFormed) (hi : ¬ n.IsInline) (hf : n.script.fault? = none) :
    Shows n.script (Node.doc · n) := by
  cases n with
  | bare => simp [Node.script, Step.fault?] at hf
  | option o => exact o.shows (by simpa [IsInline] using hi) hf
  | reservation r => exact Reservation.shows hf
  | imported i => exact i.shows
  | field f => exact shows_lineScript hf
  | mapField f => exact shows_lineScript hf
  | oneof o => exact Oneof.shows hw hf
  | enumValue v => exact shows_lineScript hf
  | enum e => exact EnumDecl.shows hw hf
  | message m => exact Message.shows hw hf
  | method m => exact Method.shows hw hf
  | service s => exact Service.shows hw hf
  | extension e => exact Extension.shows hf
  | file f => exact File.shows hw hf

/-- **Wide rendering**: where every line of its document has room, the text of a node is
its document. -/
theorem print_eq_doc (n : Node) (hw : n.WellFormed) (hi : ¬ n.IsInline) (style : Style)
    {text : String} (hp : n.print style = .ok text)
    (hl : ∀ l ∈ n.doc (copies style.indentSize style.unit), l.length ≤ style.lineWidth) :
    text = String.ofList
      ((n.doc (copies style.indentSize style.unit)).flatMap fun l => l ++ ['\n']) := by
  rw [print_eq] at hp
  cases hf : n.script.fault? with
  | some e => simp [hf] at hp
  | none =>
    simp only [hf, Except.ok.injEq] at hp
    obtain ⟨ls, h, hs⟩ := shows hw hi hf
    have hd : ls.map (Line.plain (copies style.indentSize style.unit)) =
        n.doc (copies style.indentSize style.unit) := hs _
    have ht : (n.emit (.ofStyle style)).text = ls.flatMap (Line.write style 0) :=
      congrArg Outcome.text (h.run style 0)
    rw [← hp, ht, ← hd, List.flatMap_map]
    rw [← hd, List.forall_mem_map] at hl
    refine congrArg String.ofList ?_
    rw [List.flatMap_def, List.flatMap_def]
    exact congrArg List.flatten (List.map_congr_left fun l hm =>
      Line.write_of_room (h.oneLine l hm) (hl l hm))

/-- The sample has room in lines of eighty characters. -/
theorem print_eq_doc_sample :
    (message (.sample 4)).WellFormed ∧ ¬ (message (.sample 4)).IsInline ∧
      (∀ l ∈ (message (.sample 4)).doc [' ', ' '], l.length ≤ 80) ∧
      (message (.sample 4)).print .usual = .ok
        ("// A piece of music\nmessage Track \x7b\n\n  option deprecated = true;\n\n" ++
        "  reserved 2, 3;\n\n  string title = 1;\n\n" ++
        "  oneof source \x7b\n\n    string path = 4;\n  \x7d\n\x7d\n") := by
  have hw : (message (.sample 4)).WellFormed := Message.sample_wellFormed (by decide)
  have hi : ¬ (message (.sample 4)).IsInline := fun h => h
  have hl : ∀ l ∈ (message (.sample 4)).doc [' ', ' '], l.length ≤ 80 := by decide
  obtain ⟨text, hp⟩ := print_sample .usual
  have ht := print_eq_doc (message (.sample 4)) hw hi .usual hp hl
  refine ⟨hw, hi, hl, ?_⟩
  rw [hp, ht]
  exact congrArg Except.ok (by decide +kernel)

end Node

end ProtoSchema
