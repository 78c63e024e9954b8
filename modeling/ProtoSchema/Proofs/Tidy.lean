import ProtoSchema.Proofs.Literals
import ProtoSchema.Proofs.Neat

/-!
Declarations that are laid out neatly.

A declaration is tidy if its names are words, no line of its comments ends in a space, and no block
of a body is empty. Besides, a quote in the name of an option could mislead the scan that looks for
the literal behind it. A tidy declaration without such names is laid out neatly.
-/

namespace ProtoSchema

open Layout Print Usage

/-! ### Tidy declarations -/

/-- The name and the text of an enum value are words. -/
structure OptionEntry.Tidy (e : OptionEntry) : Prop where
  name : IsWord e.name
  literal : e.type = .enum → IsWord e.value.plainText

def OptionValue.Tidy : OptionValue → Prop
  | .literal type value => type = .enum → IsWord value.plainText
  | .entries es => ∀ e ∈ es, e.Tidy

structure OptionDecl.Tidy (o : OptionDecl) : Prop where
  name : IsWord o.name
  comment : TidyComment o.comment
  value : o.value.Tidy

structure Field.Tidy (f : Field) : Prop where
  name : IsWord f.name
  typeName : ∀ name ∈ f.typeName, IsWord name
  comment : TidyComment f.comment
  options : ∀ o ∈ f.options, o.Tidy

structure MapField.Tidy (f : MapField) : Prop where
  name : IsWord f.name
  typeName : ∀ name ∈ f.typeName, IsWord name
  comment : TidyComment f.comment
  options : ∀ o ∈ f.options, o.Tidy

structure EnumValue.Tidy (v : EnumValue) : Prop where
  name : IsWord v.name
  comment : TidyComment v.comment
  options : ∀ o ∈ v.options, o.Tidy

structure Reservation.Tidy (r : Reservation) : Prop where
  names : ∀ name ∈ r.names, IsWord name
  comment : TidyComment r.comment

structure Oneof.Tidy (o : Oneof) : Prop where
  name : IsWord o.name
  comment : TidyComment o.comment
  options : ∀ p ∈ o.options, p.Tidy
  members : ∀ f ∈ o.members, f.Tidy

structure EnumDecl.Tidy (e : EnumDecl) : Prop where
  name : IsWord e.name
  comment : TidyComment e.comment
  options : ∀ o ∈ e.options, o.Tidy
  reservations : ∀ r ∈ e.reservations, r.Tidy
  values : ∀ v ∈ e.values, v.Tidy

structure Method.Tidy (m : Method) : Prop where
  name : IsWord m.name
  request : IsWord m.request
  response : IsWord m.response
  comment : TidyComment m.comment
  options : ∀ o ∈ m.options, o.Tidy

structure Service.Tidy (s : Service) : Prop where
  name : IsWord s.name
  comment : TidyComment s.comment
  options : ∀ o ∈ s.options, o.Tidy
  methods : ∀ m ∈ s.methods, m.Tidy

structure Extension.Tidy (e : Extension) : Prop where
  comment : TidyComment e.comment
  fields : ∀ f ∈ e.fields, f.Tidy

mutual

/-- No block of the message is empty, and none of a message inside of it. -/
inductive Message.Tidy : Message → Prop
  | mk {m : Message} (name : IsWord m.name) (comment : TidyComment m.comment)
      (options : ∀ o ∈ m.options, o.Tidy) (reservations : ∀ r ∈ m.reservations, r.Tidy)
      (blocks : [] ∉ m.blocks) (members : ∀ x ∈ m.blocks.flatten, Member.Tidy x) :
      Message.Tidy m

inductive Member.Tidy : Member → Prop
  | field {f : Field} (h : f.Tidy) : Member.Tidy (.field f)
  | map {f : MapField} (h : f.Tidy) : Member.Tidy (.map f)
  | oneof {o : Oneof} (h : o.Tidy) : Member.Tidy (.oneof o)
  | message {m : Message} (h : Message.Tidy m) : Member.Tidy (.message m)
  | enum {e : EnumDecl} (h : e.Tidy) : Member.Tidy (.enum e)

end

def Declaration.Tidy : Declaration → Prop
  | .message m => m.Tidy
  | .enum e => e.Tidy
  | .service s => s.Tidy
  | .extension e => e.Tidy

structure File.Tidy (f : File) : Prop where
  comment : TidyComment f.comment
  package : ∀ package ∈ f.package, IsWord package
  imports : ∀ i ∈ f.explicitImports, IsWord i.path
  options : ∀ o ∈ f.options, o.Tidy
  blocks : [] ∉ f.blocks
  declarations : ∀ d ∈ f.blocks.flatten, d.Tidy

/-- No name in front of a literal in quotes has a quote in it. -/
def OptionDecl.ClearNames (o : OptionDecl) : Prop :=
  match o.value with
  | .literal type _ => type.isQuoted → '"' ∉ o.name.toList
  | .entries es => ∀ e ∈ es, e.type.isQuoted → '"' ∉ e.name.toList

/-! ### Options -/

namespace Print

/-- The script goes on with a line, by clean runs none of which starts with a space. -/
def Continues (s : Script) : Prop :=
  s.fault? = none → ∃ parts : List String, s = parts.map .emit ∧
    ∀ p ∈ parts, Clean p.toList ∧ Opens p.toList

namespace Continues

variable {s t : Script}

lemma nil : Continues [] := fun _ => ⟨[], rfl, by simp⟩

lemma emit {text : String} (h : Clean text.toList) (ho : Opens text.toList) :
    Continues [.emit text] :=
  fun _ => ⟨[text], rfl, List.forall_mem_singleton.2 ⟨h, ho⟩⟩

lemma append (hs : Continues s) (ht : Continues t) : Continues (s ++ t) := by
  intro hf
  rw [Script.fault?_append, Option.or_eq_none_iff] at hf
  obtain ⟨ps, rfl, hp⟩ := hs hf.1
  obtain ⟨qs, rfl, hq⟩ := ht hf.2
  exact ⟨ps ++ qs, List.map_append.symm, List.forall_mem_append.2 ⟨hp, hq⟩⟩

lemma flatMap {α : Type} {script : α → Script} {as : List α} (h : ∀ a ∈ as, Continues (script a)) :
    Continues (as.flatMap script) := by
  induction as with
  | nil => exact nil
  | cons a as ih =>
    obtain ⟨ha, has⟩ := List.forall_mem_cons.1 h
    exact ha.append (ih has)

lemma intercalate {between : Script} (hb : Continues between) {ss : List Script}
    (h : ∀ s ∈ ss, Continues s) : Continues (List.intercalate between ss) := by
  induction ss with
  | nil => exact nil
  | cons s ss ih =>
    obtain ⟨hs, hss⟩ := List.forall_mem_cons.1 h
    by_cases he : ss = []
    · subst he
      simpa using hs
    · rw [List.intercalate_cons_of_ne_nil he]
      exact (hs.append hb).append (ih hss)

end Continues

/-! ### Literals -/

/-- The text in front of the literal of a value lets the scan read the literal as one word. -/
structure Introduces (before : String) (type : FieldType) (value : Scalar) : Prop where
  suits : type.mismatch? value = none
  enum : type = .enum → IsWord value.plainText
  smooth : Smooth before.toList
  quote : type.isQuoted → '"' ∉ before.toList

namespace Introduces

variable {before after : String} {type : FieldType} {value : Scalar}

lemma of_phrase {name between : String} (hn : Phrase name)
    (hb : Smooth between.toList ∧ '"' ∉ between.toList) (hs : type.mismatch? value = none)
    (he : type = .enum → IsWord value.plainText) (hq : type.isQuoted → '"' ∉ name.toList) :
    Introduces (name ++ between) type value := by
  refine ⟨hs, he, ?_, fun h => by simp [hq h, hb.2]⟩
  rw [String.toList_append]
  exact hn.smooth.append hb.1 (.inl hn.closes.2)

lemma continues (h : Introduces before type value) (ho : Opens before.toList)
    (ha : Smooth after.toList) :
    Continues [.literal before (type.format value) after] := by
  cases hl : type.format value with
  | error e =>
    intro hf
    simp [Step.literal, Step.fault?] at hf
  | ok literal =>
    have hc := FieldType.clean_literal h.suits h.enum hl h.smooth h.quote ha
    refine .emit ?_ ?_
    · simpa using hc
    · simpa using ho.append (literal.toList ++ after.toList)

/-- A literal that ends the line. -/
lemma writes (h : Introduces before type value) (hs : ' ' ∈ before.toList) (after : String)
    {ended : String} (he : ended = after ++ "\n") (ha : Smooth after.toList)
    (hc : after.toList = [] ∨ Closes after.toList) :
    Writes [.literal before (type.format value) ended] fun d => ∃ l, d = [l] ∧ Starts l := by
  cases hl : type.format value with
  | error e =>
    intro hf
    simp [Step.literal, Step.fault?] at hf
  | ok literal =>
    have hr := FieldType.clean_literal h.suits h.enum hl h.smooth h.quote ha
    have hw : Closes (before.toList ++ literal.toList ++ after.toList) := by
      rcases hc with hc | hc
      · rw [hc, List.append_nil]
        exact (FieldType.closes_literal h.suits h.enum hl).behind _
      · exact hc.behind _
    have hf : Flow [(before ++ literal ++ after).toList] := by
      simpa using Flow.single hr hw
    have hd : before ++ literal ++ ended = before ++ literal ++ after ++ "\n" := by
      rw [he, ← String.append_assoc]
    exact (Writes.line [] hd hf).imp fun d hd => ⟨_, hd, starts_of_space (by simp [hs])⟩

end Introduces

end Print

namespace OptionDecl

variable {o : OptionDecl}

lemma phrase_writtenName (h : IsWord o.name) : Phrase o.writtenName := by
  unfold writtenName
  split
  · exact .word h
  · exact (Phrase.lead (by decide) (.word h)).trail (by decide)

lemma quote_not_mem_writtenName (h : '"' ∉ o.name.toList) : '"' ∉ o.writtenName.toList := by
  unfold writtenName
  split
  · exact h
  · simp [h]

lemma introduces_entry {e : OptionEntry} (hw : e.WellFormed) (ht : e.Tidy)
    (hc : e.type.isQuoted → '"' ∉ e.name.toList) : Introduces (e.name ++ ": ") e.type e.value :=
  .of_phrase (.word ht.name) (by decide) hw ht.literal hc

lemma continues_inlineScript (hw : o.value.WellFormed) (ht : o.Tidy) (hc : o.ClearNames) :
    Continues o.inlineScript := by
  have hn := phrase_writtenName ht.name
  have htv := ht.value
  unfold ClearNames at hc
  unfold inlineScript
  cases hv : o.value with
  | literal type value =>
    rw [hv] at hw hc htv
    have hi : Introduces (o.writtenName ++ " = ") type value :=
      .of_phrase hn (by decide) hw htv fun hq => quote_not_mem_writtenName (hc hq)
    exact hi.continues (by simpa using hn.opens.append " = ".toList) (by decide)
  | entries es =>
    rw [hv] at hw hc htv
    have hs : Smooth (o.writtenName ++ " = \x7b ").toList := by
      rw [String.toList_append]
      exact hn.smooth.append (by decide) (.inl hn.closes.2)
    have ho : Opens (o.writtenName ++ " = \x7b ").toList := by
      rw [String.toList_append]
      exact hn.opens.append _
    have hes : Continues (es.map (OptionEntry.step · " ")) := by
      rw [List.map_eq_flatMap]
      refine .flatMap fun e he => (introduces_entry (hw e he) (htv e he) (hc e he)).continues ?_
        (by decide)
      simpa using (Phrase.word (htv e he).name).opens.append ": ".toList
    exact (Continues.emit hs.clean ho).append
      (hes.append (.emit (Smooth.clean (by decide)) (by decide)))

/-- The statement of an option, behind its comment. -/
lemma neat_statementScript (hw : o.value.WellFormed) (ht : o.Tidy) (hc : o.ClearNames) :
    Neat o.statementScript := by
  have hn : Phrase ("option " ++ o.writtenName) := .lead (by decide) (phrase_writtenName ht.name)
  have htv := ht.value
  unfold ClearNames at hc
  unfold statementScript
  cases hv : o.value with
  | literal type value =>
    rw [hv] at hw hc htv
    have hi : Introduces ("option " ++ o.writtenName ++ " = ") type value :=
      .of_phrase hn (by decide) hw htv fun hq => by simp [quote_not_mem_writtenName (hc hq)]
    refine (hi.writes (by simp) ";" rfl (by decide) (.inr (by decide))).imp ?_
    rintro d ⟨l, rfl, hl⟩
    exact .single hl
  | entries es =>
    rw [hv] at hw hc htv
    have hl : Neat [.emit ("option " ++ o.writtenName ++ " = \x7b\n")] :=
      .phrase ("option " ++ o.writtenName ++ " = \x7b") (by simp [String.append_assoc])
        (hn.trail (by decide)) (by simp)
    have hes : Writes (es.map (OptionEntry.step · "\n")) (∀ l ∈ ·, Starts l) := by
      rw [List.map_eq_flatMap]
      refine .flatMap fun e he => ?_
      have hi := introduces_entry (hw e he) (htv e he) (hc e he)
      refine (hi.writes (by simp) "" rfl (by decide) (.inl rfl)).imp ?_
      rintro d ⟨l, rfl, hl⟩
      exact List.forall_mem_singleton.2 hl
    have hb : Neat ([.emit ("option " ++ o.writtenName ++ " = \x7b\n")] ++
        .indent none :: (es.map (OptionEntry.step · "\n") ++ [.unindent none])) :=
      Writes.append hl hes.indented fun _ _ ha hb => ha.more hb
    simpa using hb.closed "\x7d;" (rfl : "\x7d;\n" = _) (by decide)

lemma neat {target : OptionTarget} (hi : target.isInline = false) (hw : o.WellFormed target)
    (ht : o.Tidy) (hc : o.ClearNames) : Neat o.script := by
  rw [script, hw.target, hi]
  exact (neat_statementScript hw.value ht hc).commented ht.comment

end OptionDecl

/-! ### Declarations on a line -/

/-- Options that are well formed, tidy, and have clear names. -/
structure TidyOptions (target : OptionTarget) (options : List OptionDecl) : Prop where
  wellFormed : ∀ o ∈ options, o.WellFormed target
  tidy : ∀ o ∈ options, o.Tidy
  clear : ∀ o ∈ options, o.ClearNames

namespace TidyOptions

variable {target : OptionTarget} {options : List OptionDecl}

lemma neat_optionSection (h : TidyOptions target options) (hi : target.isInline = false) :
    ∀ s ∈ optionSection options, Neat s :=
  neat_sectionFor fun hn => .flatMap hn fun o ho =>
    OptionDecl.neat hi (h.wellFormed o ho) (h.tidy o ho) (h.clear o ho)

lemma continues_inline (h : TidyOptions target options) :
    Continues (List.intercalate [.emit ", "] (options.map OptionDecl.inlineScript)) :=
  .intercalate (.emit (Smooth.clean (by decide)) (by decide)) (List.forall_mem_map.2 fun o ho =>
    OptionDecl.continues_inlineScript (h.wellFormed o ho).value (h.tidy o ho) (h.clear o ho))

/-- A line with the options in brackets. -/
lemma neat_bracketScript (h : TidyOptions target options) {text : String} (ht : Phrase text)
    (hs : ' ' ∈ text.toList) :
    Neat (.emit text :: (OptionDecl.bracketScript options ++ [.emit ";\n"])) := by
  have he : ";\n" = ";" ++ "\n" := rfl
  unfold OptionDecl.bracketScript
  split
  · exact .line [text] he ((Flow.phrase ht).append (.phrase (.word (by decide)))) (by simp [hs])
  · intro hf
    have hi : Script.fault?
        (List.intercalate [.emit ", "] (options.map OptionDecl.inlineScript)) = none := by
      simpa [Step.fault?] using hf
    obtain ⟨ps, hp, hps⟩ := h.continues_inline hi
    have hb : Flow [" [".toList] := .single (Smooth.clean (by decide)) (by decide)
    have hr : Flow ((ps ++ ["]", ";"]).map String.toList) := by
      refine .of_opens (List.forall_mem_map.2 (List.forall_mem_append.2 ⟨hps, ?_⟩)) ?_
      · exact List.forall_mem_cons.2 ⟨⟨Smooth.clean (by decide), by decide⟩,
          List.forall_mem_singleton.2 ⟨Smooth.clean (by decide), by decide⟩⟩
      · rw [List.map_append, List.flatten_append]
        exact Closes.behind (by decide) _
    have hl := Neat.line (text :: " [" :: (ps ++ ["]"])) he
      (by simpa using (Flow.phrase ht).append (hb.append hr)) (by simp [hs])
    have hn : Neat
        (.emit text :: (.emit " [" :: (ps.map .emit ++ [.emit "]"]) ++ [.emit ";\n"])) := by
      simpa using hl
    rw [hp] at hf ⊢
    exact hn hf

end TidyOptions

lemma neat_lineScript {comment : List String} (hc : TidyComment comment) (number : Int)
    {text : String} (ht : Phrase text) (hs : ' ' ∈ text.toList) {target : OptionTarget}
    {options : List OptionDecl} (ho : TidyOptions target options) :
    Neat (lineScript comment number text options) :=
  Neat.commented hc (Writes.numbered [number] (ho.neat_bracketScript ht hs))

lemma FieldType.isWord_name (t : FieldType) : IsWord t.name := by cases t <;> decide

lemma isWord_typeLabel (type : FieldType) {typeName : Option String}
    (h : ∀ name ∈ typeName, IsWord name) :
    IsWord (typeLabel type typeName) := by
  unfold typeLabel
  split
  · exact type.isWord_name
  · exact type.isWord_name
  · exact h _ rfl

lemma phrase_modifier (m : FieldModifier) {text : String} (h : Phrase text) :
    Phrase (leading m.name ++ text) := by
  cases m with
  | singular => simpa [FieldModifier.name, leading] using h
  | repeated => exact .lead (by decide) h
  | optional => exact .lead (by decide) h

lemma Field.neat {f : Field} (hw : f.WellFormed) (ht : f.Tidy)
    (hc : ∀ o ∈ f.options, o.ClearNames) :
    Neat f.script := by
  have hl := phrase_modifier f.modifier (.word (isWord_typeLabel f.type ht.typeName))
  have hp := (hl.join (k := " ") (by decide) (.word ht.name)).join (k := " = ") (by decide)
    (.word (.toString_int f.number))
  exact neat_lineScript ht.comment _ hp (by simp) ⟨hw.options, ht.options, hc⟩

lemma MapField.neat {f : MapField} (hw : f.WellFormed) (ht : f.Tidy)
    (hc : ∀ o ∈ f.options, o.ClearNames) :
    Neat f.script := by
  have hk : Phrase ("map<" ++ f.keyType.name) := .lead (by decide) (.word f.keyType.isWord_name)
  have hv := hk.join (k := ", ") (by decide) (.word (isWord_typeLabel f.valueType ht.typeName))
  have hp := (hv.join (k := "> ") (by decide) (.word ht.name)).join (k := " = ") (by decide)
    (.word (.toString_int f.number))
  exact neat_lineScript ht.comment _ hp (by simp) ⟨hw.options, ht.options, hc⟩

lemma EnumValue.neat {v : EnumValue} (hw : v.WellFormed) (ht : v.Tidy)
    (hc : ∀ o ∈ v.options, o.ClearNames) : Neat v.script := by
  have hp := (Phrase.word ht.name).join (k := " = ") (by decide) (.word (.toString_int v.number))
  exact neat_lineScript ht.comment _ hp (by simp) ⟨hw.options, ht.options, hc⟩

lemma Reservation.neat {r : Reservation} (hw : r.WellFormed) (ht : r.Tidy) : Neat r.script := by
  have hn : r.items ≠ [] := by
    rcases hw.some with h | h | h <;> simp [items, h]
  have hi : ∀ i ∈ r.items, Phrase i := by
    refine List.forall_mem_append.2 ⟨List.forall_mem_append.2
      ⟨List.forall_mem_map.2 fun name hm => ?_,
        List.forall_mem_map.2 fun n _ => .word (.toString_int n)⟩,
      List.forall_mem_map.2 fun range _ => ?_⟩
    · exact (Phrase.lead (by decide) (.word (ht.names name hm))).trail (by decide)
    · exact (Phrase.word (.quantity range.low)).join (by decide) (.word (.quantity range.high))
  have hp : Phrase ("reserved " ++ ", ".intercalate r.items ++ ";") :=
    (Phrase.lead (by decide) (.intercalate (by decide) hn hi)).trail (by decide)
  have hl : Neat [.emit ("reserved " ++ ", ".intercalate r.items ++ ";\n")] :=
    .phrase _ (by simp [String.append_assoc]) hp (by simp)
  exact Neat.commented ht.comment (Writes.numbered _ hl)

lemma Import.neat {i : Import} (h : IsWord i.path) : Neat i.script := by
  have hk : Smooth ("import " ++ leading i.modifier.name ++ "\"").toList ∧
      Opens ("import " ++ leading i.modifier.name ++ "\"").toList := by
    cases i.modifier <;> decide
  have hp : Phrase ("import " ++ leading i.modifier.name ++ "\"" ++ i.path ++ "\";") :=
    (Phrase.lead hk (.word h)).trail (by decide)
  exact .phrase _ (by simp [String.append_assoc]) hp (by simp)

/-! ### Declarations with a body -/

lemma neat_reservedScript {reservations : List Reservation} (hw : ∀ r ∈ reservations, r.WellFormed)
    (ht : ∀ r ∈ reservations, r.Tidy) :
    ∀ s ∈ sectionFor reservations (reservedScript reservations).1, Neat s :=
  neat_sectionFor fun hn =>
    .registered (.flatMap hn fun r hr => Reservation.neat (hw r hr) (ht r hr)) _

lemma neat_fieldScript {α : Type} (identity : α → FieldIdentity) {script : α → Script} {as : List α}
    (h : ∀ a ∈ as, Neat (script a)) (s : FieldScope) :
    ∀ t ∈ sectionFor as (fieldScript identity script s as), Neat t :=
  neat_sectionFor fun hn => .registered (.flatMap hn h) s

/-- A body behind a comment and a keyword. -/
lemma neat_declaration {comment : List String} (hc : TidyComment comment) {header : String}
    (hh : Phrase header) {ss : List Script} (h : ∀ s ∈ ss, Neat s) :
    Neat (.comment comment :: scope header ss) :=
  (Neat.scope hh h).commented hc

lemma Oneof.neat {o : Oneof} (hw : o.WellFormed) (ht : o.Tidy)
    (hc : ∀ p ∈ o.allOptions, p.ClearNames) :
    Neat o.script := by
  simp only [allOptions, List.forall_mem_append, List.forall_mem_flatMap] at hc
  have ho : TidyOptions .oneof o.options := ⟨hw.options, ht.options, hc.1⟩
  have hm : ∀ s ∈ sectionFor o.members (o.members.flatMap Field.script), Neat s :=
    neat_sectionFor fun hn => .flatMap hn fun f hf =>
      Field.neat (hw.members f hf).1 (ht.members f hf) (hc.2 f hf)
  exact neat_declaration ht.comment (.lead (by decide) (.word ht.name))
    (List.forall_mem_append.2 ⟨ho.neat_optionSection rfl, hm⟩)

lemma EnumDecl.neat {e : EnumDecl} (hw : e.WellFormed) (ht : e.Tidy)
    (hc : ∀ o ∈ e.allOptions, o.ClearNames) : Neat e.script := by
  simp only [allOptions, List.forall_mem_append, List.forall_mem_flatMap] at hc
  have ho : TidyOptions .enum e.options := ⟨hw.options, ht.options, hc.1⟩
  have hr := neat_reservedScript hw.reservations ht.reservations
  have hv := neat_fieldScript EnumValue.identity (fun v hv =>
    EnumValue.neat (hw.values v hv) (ht.values v hv) (hc.2 v hv)) (reservedScript e.reservations).2
  exact neat_declaration ht.comment (.lead (by decide) (.word ht.name))
    (List.forall_mem_append.2 ⟨List.forall_mem_append.2 ⟨ho.neat_optionSection rfl, hr⟩, hv⟩)

namespace Method

lemma phrase_part (streaming : Bool) {message : String} (h : IsWord message) :
    Phrase (part streaming message) := by
  unfold part
  split
  · exact .lead (by decide) (.word h)
  · exact .word h

lemma phrase_signature {m : Method} (ht : m.Tidy) : Phrase m.signature := by
  have hn : Phrase ("rpc " ++ m.name) := .lead (by decide) (.word ht.name)
  exact ((hn.join (by decide) (phrase_part _ ht.request)).join (by decide)
    (phrase_part _ ht.response)).trail (by decide)

lemma neat {m : Method} (hw : m.WellFormed) (ht : m.Tidy) (hc : ∀ o ∈ m.options, o.ClearNames) :
    Neat m.script := by
  have hp := phrase_signature ht
  have hs : ' ' ∈ m.signature.toList := by simp [signature]
  have hl : ∀ last : String, Smooth last.toList → Closes last.toList →
      Neat [.emit m.signature, .emit (last ++ "\n")] := fun last hr hc =>
    .line [m.signature] rfl ((Flow.phrase hp).append (.single hr.clean hc)) (by simp [hs])
  refine Neat.commented ht.comment ?_
  split
  · exact hl ";" (by decide) (by decide)
  · next hn =>
    have ho : Neat (m.options.flatMap OptionDecl.script) :=
      .flatMap (by simpa using hn) fun o ho =>
        OptionDecl.neat rfl (hw.options o ho) (ht.options o ho) (hc o ho)
    have hb : Neat (.indent none :: (m.options.flatMap OptionDecl.script ++ [.unindent none])) :=
      Writes.indented ho
    have hh : Neat [.emit m.signature, .emit " \x7b\n"] := hl " \x7b" (by decide) (by decide)
    simpa using (hh.append hb).closed "\x7d" (rfl : "\x7d\n" = _) (by decide)

end Method

lemma Service.neat {s : Service} (hw : s.WellFormed) (ht : s.Tidy)
    (hc : ∀ o ∈ s.allOptions, o.ClearNames) : Neat s.script := by
  simp only [allOptions, List.forall_mem_append, List.forall_mem_flatMap] at hc
  have ho : TidyOptions .service s.options := ⟨hw.options, ht.options, hc.1⟩
  have hm := neat_fieldScript Method.identity (fun m hm =>
    Method.neat (hw.methods m hm) (ht.methods m hm) (hc.2 m hm)) {}
  exact neat_declaration ht.comment (.lead (by decide) (.word ht.name))
    (List.forall_mem_append.2 ⟨ho.neat_optionSection rfl, hm⟩)

lemma Extension.neat {e : Extension} (hw : e.WellFormed) (ht : e.Tidy)
    (hc : ∀ o ∈ e.allOptions, o.ClearNames) : Neat e.script := by
  simp only [allOptions, List.forall_mem_flatMap] at hc
  have hf := neat_fieldScript Field.identity (fun f hf =>
    Field.neat (hw f hf) (ht.fields f hf) (hc f hf)) {}
  have hn : IsWord e.typeName := by
    unfold typeName
    cases e.target <;> decide
  exact neat_declaration ht.comment (.lead (by decide) (.word hn)) hf

/-! ### Nested declarations -/

namespace Message.Tidy

variable {m : Message}

lemma name (h : m.Tidy) : IsWord m.name := by
  cases h with
  | mk name comment options reservations blocks members => exact name

lemma comment (h : m.Tidy) : TidyComment m.comment := by
  cases h with
  | mk name comment options reservations blocks members => exact comment

lemma options (h : m.Tidy) : ∀ o ∈ m.options, o.Tidy := by
  cases h with
  | mk name comment options reservations blocks members => exact options

lemma reservations (h : m.Tidy) : ∀ r ∈ m.reservations, r.Tidy := by
  cases h with
  | mk name comment options reservations blocks members => exact reservations

lemma blocks (h : m.Tidy) : [] ∉ m.blocks := by
  cases h with
  | mk name comment options reservations blocks members => exact blocks

lemma members (h : m.Tidy) : ∀ x ∈ m.blocks.flatten, Member.Tidy x := by
  cases h with
  | mk name comment options reservations blocks members => exact members

end Message.Tidy

lemma Member.neat_sections {blocks : List (List Member)} (hb : [] ∉ blocks)
    (h : ∀ m ∈ blocks.flatten, Neat m.script) (s : MemberScope) :
    ∀ t ∈ Member.sections s blocks, Neat t := by
  induction blocks generalizing s with
  | nil => exact fun t ht => absurd ht List.not_mem_nil
  | cons b bs ih =>
    obtain ⟨hn, hbs⟩ := not_or.1 (mt List.mem_cons.2 hb)
    rw [List.flatten_cons, List.forall_mem_append] at h
    simp only [Member.sections, Member.blockScript_eq]
    exact List.forall_mem_cons.2 ⟨.registered (.flatMap (Ne.symm hn) h.1) s, ih hbs h.2 _⟩

lemma Message.neat {m : Message} (hw : m.WellFormed) (ht : m.Tidy)
    (hc : ∀ o ∈ m.allOptions, o.ClearNames) : Neat m.script := by
  induction m using Message.induction with
  | step m ih =>
    rw [allOptions_eq, List.forall_mem_append, List.forall_mem_flatMap] at hc
    obtain ⟨hco, hcm⟩ := hc
    have hm : ∀ x ∈ m.blocks.flatten, Neat x.script := by
      intro x hx
      cases ht.members x hx with
      | field htx => cases hw.members _ hx with | field hwx => exact Field.neat hwx htx (hcm _ hx)
      | map htx => cases hw.members _ hx with | map hwx => exact MapField.neat hwx htx (hcm _ hx)
      | oneof htx => cases hw.members _ hx with | oneof hwx => exact Oneof.neat hwx htx (hcm _ hx)
      | message htx => cases hw.members _ hx with | message hwx => exact ih _ hx hwx htx (hcm _ hx)
      | enum htx => cases hw.members _ hx with | enum hwx => exact EnumDecl.neat hwx htx (hcm _ hx)
    have ho : TidyOptions .message m.options := ⟨hw.options, ht.options, hco⟩
    have hr := neat_reservedScript hw.reservations ht.reservations
    have hs := Member.neat_sections ht.blocks hm
      ⟨(reservedScript m.reservations).2, { owner := some m.name }⟩
    rw [Message.script_eq]
    exact neat_declaration ht.comment (.lead (by decide) (.word ht.name))
      (List.forall_mem_append.2 ⟨List.forall_mem_append.2 ⟨ho.neat_optionSection rfl, hr⟩, hs⟩)

lemma Declaration.neat {d : Declaration} (hw : d.WellFormed) (ht : d.Tidy)
    (hc : ∀ o ∈ d.allOptions, o.ClearNames) : Neat d.script := by
  cases d with
  | message m => exact Message.neat hw ht hc
  | enum e => exact EnumDecl.neat hw ht hc
  | service s => exact Service.neat hw ht hc
  | extension e => exact Extension.neat hw ht hc

/-! ### Files -/

/-- Blocks behind what stands above them. -/
lemma Declaration.neat_blocksScript {blocks : List (List Declaration)} (hb : [] ∉ blocks)
    (h : ∀ d ∈ blocks.flatten, Neat d.script) {above : Script} (ha : Neat above) (s : TypeScope) :
    Neat (above ++ blocksScript s blocks) := by
  induction blocks generalizing above s with
  | nil => simpa [blocksScript] using ha
  | cons b bs ih =>
    obtain ⟨hn, hbs⟩ := not_or.1 (mt List.mem_cons.2 hb)
    rw [List.flatten_cons, List.forall_mem_append] at h
    have hd : Neat (registered register script s b).1 := .registered (.flatMap (Ne.symm hn) h.1) s
    simpa [blocksScript] using ih hbs h.2 (ha.apart hd) (registered register script s b).2

namespace File

lemma neat_part {α : Type} {elements : List α} {script : α → Script}
    (h : ∀ a ∈ elements, Neat (script a)) {above : Script} (ha : Neat above) :
    Neat (above ++ part elements script) := by
  unfold part
  split
  · rwa [List.append_nil]
  · next hn => exact ha.apart (.flatMap (by simpa using hn) h)

lemma neat_packageScript {f : File} (h : ∀ package ∈ f.package, IsWord package) {above : Script}
    (ha : Neat above) : Neat (above ++ f.packageScript) := by
  unfold packageScript
  split
  · rwa [List.append_nil]
  · next package hp =>
    have hl : Phrase ("package " ++ package ++ ";") :=
      (Phrase.lead (by decide) (.word (h package hp))).trail (by decide)
    have hs : Neat [.emit ("package " ++ package ++ ";\n")] :=
      .phrase _ (by simp [String.append_assoc]) hl (by simp)
    have he : ("\npackage " ++ package ++ ";\n").toList =
        '\n' :: ("package " ++ package ++ ";\n").toList := by
      simp
    refine Writes.congr (ha.apart hs) (by simp [Step.fault?]) fun w => ?_
    rw [Script.run_append, Script.run_append]
    exact congrArg (Outcome.andThen _) (funext (run_newline_cons he))

lemma isWord_path {f : File} (ht : f.Tidy) : ∀ i ∈ f.imports, IsWord i.path := by
  intro i hi
  rcases List.mem_append.1 (Import.mem_of_mem_canonical hi) with hi | hi
  · exact ht.imports i hi
  · obtain ⟨d, -, hi⟩ := List.mem_flatMap.1 hi
    cases d with
    | extension e =>
      obtain rfl : i = .descriptor := List.mem_singleton.1 hi
      decide
    | _ => exact absurd hi List.not_mem_nil

/-- **Tidy files** are laid out neatly. -/
theorem neat {f : File} (hw : f.WellFormed) (ht : f.Tidy) (hc : ∀ o ∈ f.allOptions, o.ClearNames) :
    Neat f.script := by
  simp only [allOptions, List.forall_mem_append, List.forall_mem_flatMap] at hc
  have hi : ∀ i ∈ f.imports, Neat i.script := fun i hi => Import.neat (isWord_path ht i hi)
  have hs : Neat [.emit "syntax = \"proto3\";\n"] :=
    .phrase "syntax = \"proto3\";" rfl ⟨by decide, by decide, by decide⟩ (by decide)
  have ho : ∀ o ∈ f.options, Neat o.script := fun o ho =>
    OptionDecl.neat rfl (hw.options o ho) (ht.options o ho) (hc.1 o ho)
  have hd : ∀ d ∈ f.blocks.flatten, Neat d.script := fun d hd =>
    Declaration.neat (hw.declarations d hd) (ht.declarations d hd) (hc.2 d hd)
  have hp := neat_part ho (neat_part hi (neat_packageScript ht.package (hs.commented ht.comment)))
  simpa [script] using Declaration.neat_blocksScript ht.blocks hd hp {}

end File

end ProtoSchema
