import ProtoSchema.Proofs.Document
import ProtoSchema.Proofs.Keeping
import ProtoSchema.Proofs.Quoting

/-!
The literals of a declaration in its text.

A literal in quotes is never broken, however narrow the lines are, and neither is an entry of a
message value between its key and its literal. Only a quote or a newline in the name of an option or
of an entry could mislead the scan that looks for words.
-/

namespace ProtoSchema

open Layout Print Usage

/-! ### What an option keeps -/

/-- A literal in quotes. -/
def quotedText (type : FieldType) (value : Scalar) : List (List Char) :=
  if type.isQuoted then [(literalText (type.format value)).toList] else []

/-- The literal in quotes of an entry, with the end of the key and the space in front of it. -/
def OptionEntry.keptText (e : OptionEntry) : List (List Char) :=
  (quotedText e.type e.value).map fun q => lastWord e.name.toList ++ ([':', ' '] ++ q)

namespace OptionDecl

/-- The names that are written in front of values. -/
def names (o : OptionDecl) : List String :=
  o.name :: match o.value with
    | .literal _ _ => []
    | .entries es => es.map OptionEntry.name

/-- No name has a quote or a newline in it. -/
def PlainNames (o : OptionDecl) : Prop :=
  ∀ name ∈ o.names, '"' ∉ name.toList ∧ '\n' ∉ name.toList

instance : DecidablePred PlainNames := fun o =>
  inferInstanceAs (Decidable (∀ name ∈ o.names, '"' ∉ name.toList ∧ '\n' ∉ name.toList))

/-- The texts that are never broken, in the order in which they are written. -/
def keptTexts (o : OptionDecl) : List (List Char) :=
  match o.value with
  | .literal type value => quotedText type value
  | .entries es => es.flatMap OptionEntry.keptText

/-- The texts kept if all names are plain. -/
def kept (o : OptionDecl) : List (List Char) := if o.PlainNames then o.keptTexts else []

end OptionDecl

/-! ### Options keep their literals -/

lemma quotedText_eq {type : FieldType} {value : Scalar} {literal : String} (ht : type.isQuoted)
    (hl : type.format value = .ok literal) : quotedText type value = [literal.toList] := by
  rw [quotedText, if_pos ht, hl]
  rfl

lemma quotedText_eq_nil {type : FieldType} (ht : ¬ type.isQuoted) (value : Scalar) :
    quotedText type value = [] := if_neg ht

lemma OptionEntry.keptText_eq {e : OptionEntry} {literal : String} (ht : e.type.isQuoted)
    (hl : e.literal = .ok literal) :
    e.keptText = [lastWord e.name.toList ++ ([':', ' '] ++ literal.toList)] := by
  rw [keptText, quotedText_eq ht hl]
  rfl

namespace Print

lemma Keeps.literal_nothing (before : String) (literal : Except FormatError String)
    (after : String) :
    Keeps [.literal before literal after] [] := by
  cases literal with
  | ok text => exact .emit _
  | error e => exact .fail _

lemma Balanced.keeps_nothing {s : Script} (h : Balanced s) : Keeps s [] := by
  induction h with
  | nil => exact .nil
  | emit text _ ih => exact (Keeps.emit text).append ih
  | comment lines _ ih => exact (Keeps.comment lines).append ih
  | fail _ _ _ => exact .fail _
  | body _ _ ihb ihs => exact ihb.body.append ihs
  | indented _ _ ihb ihs => simpa using ihb.indented.append ihs

lemma Keeps.literal {before : String} (hb : '"' ∉ before.toList ∧ '\n' ∉ before.toList)
    (type : FieldType) (value : Scalar) (after : String) :
    Keeps [.literal before (type.format value) after] (quotedText type value) := by
  by_cases ht : type.isQuoted
  · obtain ⟨literal, hl, hq⟩ := FieldType.format_quoted ht value
    have hn : '\n' ∉ before.toList ++ literal.toList := by simp [hb.2, hq.newline_not_mem]
    have he : (before ++ literal ++ after).toList =
        before.toList ++ literal.toList ++ after.toList := by
      simp
    rw [hl, quotedText_eq ht hl]
    exact .word he hn (exists_segment_quoted hb.1 hq)
  · rw [quotedText_eq_nil ht]
    exact .literal_nothing _ _ _

end Print

namespace OptionDecl

lemma plain_writtenName {o : OptionDecl} (h : o.PlainNames) :
    '"' ∉ o.writtenName.toList ∧ '\n' ∉ o.writtenName.toList := by
  obtain ⟨hq, hn⟩ := h o.name List.mem_cons_self
  unfold writtenName
  split
  · exact ⟨hq, hn⟩
  · simp [hq, hn]

lemma keeps_entry {e : OptionEntry} (h : '"' ∉ e.name.toList ∧ '\n' ∉ e.name.toList)
    (after : String) :
    Keeps [e.step after] e.keptText := by
  by_cases ht : e.type.isQuoted
  · obtain ⟨literal, hl, hq⟩ := FieldType.format_quoted ht e.value
    have hs : e.step after = .emit (e.name ++ ": " ++ literal ++ after) := by
      rw [OptionEntry.step, OptionEntry.literal, hl, Step.literal]
    have hn : '\n' ∉ e.name.toList ++ ([':', ' '] ++ literal.toList) := by
      simp [h.2, hq.newline_not_mem]
    have he : (e.name ++ ": " ++ literal ++ after).toList =
        e.name.toList ++ ([':', ' '] ++ literal.toList) ++ after.toList := by simp
    rw [hs, OptionEntry.keptText_eq ht hl]
    exact .word he hn (exists_segment_keyed h.1 hq)
  · rw [OptionEntry.keptText, quotedText_eq_nil ht]
    exact .literal_nothing _ _ _

lemma keeps_entries {entries : List OptionEntry}
    (h : ∀ e ∈ entries, '"' ∉ e.name.toList ∧ '\n' ∉ e.name.toList) (after : String) :
    Keeps (entries.map (OptionEntry.step · after)) (entries.flatMap OptionEntry.keptText) := by
  rw [List.map_eq_flatMap]
  exact .flatMap fun e he => keeps_entry (h e he) after

variable (o : OptionDecl)

lemma plain_entry {o : OptionDecl} (h : o.PlainNames) {es : List OptionEntry}
    (hv : o.value = .entries es) :
    ∀ e ∈ es, '"' ∉ e.name.toList ∧ '\n' ∉ e.name.toList := by
  intro e he
  refine h e.name ?_
  rw [names, hv]
  exact List.mem_cons_of_mem _ (List.mem_map_of_mem he)

lemma keeps_inlineScript : Keeps o.inlineScript o.kept := by
  unfold kept
  split
  · next hp =>
    have hw := plain_writtenName hp
    unfold inlineScript keptTexts
    cases hv : o.value with
    | literal type value => exact .literal (by simp [hw]) type value ""
    | entries es =>
      have hk := (Keeps.emit (o.writtenName ++ " = \x7b ")).append
        ((keeps_entries (plain_entry hp hv) " ").append (.emit "\x7d"))
      simpa using hk
  · exact o.balanced_inlineScript.keeps_nothing

lemma keeps_statementScript : Keeps o.statementScript o.kept := by
  unfold kept
  split
  · next hp =>
    have hw := plain_writtenName hp
    unfold statementScript keptTexts
    cases hv : o.value with
    | literal type value => exact .literal (by simp [hw]) type value ";\n"
    | entries es =>
      have hk := (Keeps.emit ("option " ++ o.writtenName ++ " = \x7b\n")).append
        ((keeps_entries (plain_entry hp hv) "\n").indented.append (.emit "\x7d;\n"))
      simpa using hk
  · exact o.balanced_statementScript.keeps_nothing

lemma keeps : Keeps o.script o.kept := by
  unfold script
  split
  · exact o.keeps_inlineScript
  · exact (Keeps.comment o.comment).append o.keeps_statementScript

lemma keeps_bracketScript (options : List OptionDecl) :
    Keeps (bracketScript options) (options.flatMap kept) := by
  unfold bracketScript
  split
  · next he =>
    obtain rfl : options = [] := List.isEmpty_iff.1 he
    exact .nil
  · have hi : Keeps _ (options.flatMap kept) := .intercalate ", " fun o _ => o.keeps_inlineScript
    simpa using (Keeps.emit " [").append (hi.append (.emit "]"))

end OptionDecl

/-! ### Declarations keep their literals -/

/-- What several options keep. -/
def keptOf (options : List OptionDecl) : List (List Char) := options.flatMap OptionDecl.kept

lemma keptOf_append (options more : List OptionDecl) :
    keptOf (options ++ more) = keptOf options ++ keptOf more := List.flatMap_append

lemma keptOf_flatMap {α : Type} (options : α → List OptionDecl) (as : List α) :
    keptOf (as.flatMap options) = as.flatMap fun a => keptOf (options a) := List.flatMap_assoc

lemma keeps_lineScript (comment : List String) (number : Int) (text : String)
    (options : List OptionDecl) :
    Keeps (lineScript comment number text options) (keptOf options) := by
  have hb := (OptionDecl.keeps_bracketScript options).append (.emit ";\n")
  rw [List.append_nil] at hb
  have hn : Keeps [.numbered [number] text] [] := (Balanced.numbered _ _ .nil).keeps_nothing
  exact (Keeps.comment comment).append (hn.append hb)

lemma keepsEach_options (options : List OptionDecl) :
    KeepsEach (optionSection options) (keptOf options) :=
  .sectionFor (.flatMap fun o _ => o.keeps)

lemma Reservation.keeps (r : Reservation) : Keeps r.script [] := r.balanced.keeps_nothing

lemma keepsEach_reservations (reservations : List Reservation) :
    KeepsEach (sectionFor reservations (reservedScript reservations).1) [] := by
  have h : Keeps (reservedScript reservations).1 (reservations.flatMap fun _ => []) :=
    .registered (fun r _ => r.keeps) _
  have hn : reservations.flatMap (fun _ => ([] : List (List Char))) = [] := by simp
  exact hn ▸ KeepsEach.sectionFor h

/-- Options of a construct, and of what is directly inside of it. -/
def Oneof.allOptions (o : Oneof) : List OptionDecl := o.options ++ o.members.flatMap Field.options

def EnumDecl.allOptions (e : EnumDecl) : List OptionDecl :=
  e.options ++ e.values.flatMap EnumValue.options

def Service.allOptions (s : Service) : List OptionDecl :=
  s.options ++ s.methods.flatMap Method.options

def Extension.allOptions (e : Extension) : List OptionDecl := e.fields.flatMap Field.options

lemma Oneof.keeps (o : Oneof) : Keeps o.script (keptOf o.allOptions) := by
  rw [allOptions, keptOf_append, keptOf_flatMap]
  have hm : Keeps (o.members.flatMap Field.script) (o.members.flatMap fun f => keptOf f.options) :=
    .flatMap fun f _ => keeps_lineScript ..
  exact (Keeps.comment o.comment).append (((keepsEach_options _).append (.sectionFor hm)).scope _)

lemma EnumDecl.keeps (e : EnumDecl) : Keeps e.script (keptOf e.allOptions) := by
  rw [allOptions, keptOf_append, keptOf_flatMap]
  have hv (s) : Keeps (fieldScript EnumValue.identity EnumValue.script s e.values)
      (e.values.flatMap fun v => keptOf v.options) :=
    .registered (fun v _ => keeps_lineScript ..) s
  have hs := ((keepsEach_options e.options).append (keepsEach_reservations e.reservations)).append
    (.sectionFor (hv (reservedScript e.reservations).2))
  rw [List.append_nil] at hs
  exact (Keeps.comment e.comment).append (hs.scope _)

lemma Method.keeps (m : Method) : Keeps m.script (keptOf m.options) := by
  unfold Method.script
  split
  · next he =>
    rw [List.isEmpty_iff.1 he]
    exact (Keeps.comment m.comment).append ((Keeps.emit m.signature).append (.emit ";\n"))
  · have ho : Keeps (m.options.flatMap OptionDecl.script) (keptOf m.options) :=
      .flatMap fun o _ => o.keeps
    have hb := (Keeps.emit " \x7b\n").append (ho.indented.append (.emit "\x7d\n"))
    simpa using (Keeps.comment m.comment).append ((Keeps.emit m.signature).append hb)

lemma Service.keeps (s : Service) : Keeps s.script (keptOf s.allOptions) := by
  rw [allOptions, keptOf_append, keptOf_flatMap]
  have hm : Keeps (fieldScript Method.identity Method.script {} s.methods)
      (s.methods.flatMap fun m => keptOf m.options) :=
    .registered (fun m _ => m.keeps) _
  exact (Keeps.comment s.comment).append (((keepsEach_options _).append (.sectionFor hm)).scope _)

lemma Extension.keeps (e : Extension) : Keeps e.script (keptOf e.allOptions) := by
  rw [allOptions, keptOf_flatMap]
  have hf : Keeps (fieldScript Field.identity Field.script {} e.fields)
      (e.fields.flatMap fun f => keptOf f.options) :=
    .registered (fun f _ => keeps_lineScript ..) _
  exact (Keeps.comment e.comment).append ((KeepsEach.sectionFor hf).scope _)

/-! ### Nested declarations keep their literals -/

/-- The options of a member that is no message. -/
def Member.otherOptions : Member → List OptionDecl
  | .field f => f.options
  | .map f => f.options
  | .oneof o => o.allOptions
  | .enum e => e.allOptions
  | .message _ => []

def Member.allOptions : Member → List OptionDecl :=
  Member.collect Message.options Member.otherOptions

def Message.allOptions : Message → List OptionDecl :=
  Message.collect Message.options Member.otherOptions

lemma Message.allOptions_eq (m : Message) :
    m.allOptions = m.options ++ m.blocks.flatten.flatMap Member.allOptions :=
  Message.collect_eq _ _ m

def Declaration.allOptions : Declaration → List OptionDecl
  | .message m => m.allOptions
  | .enum e => e.allOptions
  | .service s => s.allOptions
  | .extension e => e.allOptions

def File.allOptions (f : File) : List OptionDecl :=
  f.options ++ f.blocks.flatten.flatMap Declaration.allOptions

/-- All options anywhere in a node, in the order in which they are written. -/
def Node.allOptions : Node → List OptionDecl
  | .bare | .reservation _ | .imported _ => []
  | .option o => [o]
  | .field f => f.options
  | .mapField f => f.options
  | .oneof o => o.allOptions
  | .enumValue v => v.options
  | .enum e => e.allOptions
  | .message m => m.allOptions
  | .method m => m.options
  | .service s => s.allOptions
  | .extension e => e.allOptions
  | .file f => f.allOptions

lemma Member.keepsEach_sections {blocks : List (List Member)}
    (h : ∀ m ∈ blocks.flatten, Keeps m.script (keptOf m.allOptions)) (s : MemberScope) :
    KeepsEach (Member.sections s blocks) (keptOf (blocks.flatten.flatMap Member.allOptions)) := by
  rw [keptOf_flatMap]
  induction blocks generalizing s with
  | nil => exact .nil
  | cons b bs ih =>
    rw [List.flatten_cons, List.forall_mem_append] at h
    simp only [Member.sections, Member.blockScript_eq, List.flatten_cons, List.flatMap_append]
    exact .cons (.registered h.1 s) (ih h.2 _)

lemma Message.keeps (m : Message) : Keeps m.script (keptOf m.allOptions) := by
  induction m using Message.induction with
  | step m ih =>
    have hm : ∀ x ∈ m.blocks.flatten, Keeps x.script (keptOf x.allOptions) := by
      rintro (f | f | o | n | e) hx
      · exact keeps_lineScript ..
      · exact keeps_lineScript ..
      · exact o.keeps
      · exact ih n hx
      · exact e.keeps
    have hs := ((keepsEach_options m.options).append (keepsEach_reservations m.reservations)).append
      (Member.keepsEach_sections hm ⟨(reservedScript m.reservations).2, { owner := some m.name }⟩)
    rw [List.append_nil] at hs
    rw [Message.script_eq, Message.allOptions_eq, keptOf_append]
    exact (Keeps.comment m.comment).append (hs.scope _)

lemma Declaration.keeps (d : Declaration) : Keeps d.script (keptOf d.allOptions) := by
  cases d with
  | message m => exact m.keeps
  | enum e => exact e.keeps
  | service s => exact s.keeps
  | extension e => exact e.keeps

lemma Declaration.keeps_blocksScript (s : TypeScope) (blocks : List (List Declaration)) :
    Keeps (blocksScript s blocks) (keptOf (blocks.flatten.flatMap Declaration.allOptions)) := by
  rw [keptOf_flatMap]
  induction blocks generalizing s with
  | nil => exact .nil
  | cons b bs ih =>
    have hb : Keeps (registered register script s b).1 (b.flatMap fun d => keptOf d.allOptions) :=
      .registered (fun d _ => d.keeps) s
    rw [List.flatten_cons, List.flatMap_append]
    exact (Keeps.emit "\n").append (hb.append (ih _))

lemma File.keeps (f : File) : Keeps f.script (keptOf f.allOptions) := by
  have hp : Keeps f.packageScript [] := by
    unfold packageScript
    split
    · exact .nil
    · exact .emit _
  have hi : Keeps (part f.imports Import.script) [] :=
    (balanced_part Import.balanced _).keeps_nothing
  have ho : Keeps (part f.options OptionDecl.script) (keptOf f.options) := by
    unfold part
    split
    · next he =>
      rw [List.isEmpty_iff.1 he]
      exact .nil
    · exact (Keeps.emit "\n").append (.flatMap fun o _ => o.keeps)
  have hs := ((hp.append hi).append ho).append (Declaration.keeps_blocksScript {} f.blocks)
  rw [allOptions, keptOf_append]
  exact (Keeps.comment f.comment).append ((Keeps.emit "syntax = \"proto3\";\n").append hs)

namespace Node

lemma keeps (n : Node) : Keeps n.script (keptOf n.allOptions) := by
  cases n with
  | bare => exact .fail _
  | option o => simpa [keptOf, allOptions, script] using o.keeps
  | reservation r => exact r.keeps
  | imported i => exact i.balanced.keeps_nothing
  | field f => exact keeps_lineScript ..
  | mapField f => exact keeps_lineScript ..
  | oneof o => exact o.keeps
  | enumValue v => exact keeps_lineScript ..
  | enum e => exact e.keeps
  | message m => exact m.keeps
  | method m => exact m.keeps
  | service s => exact s.keeps
  | extension e => exact e.keeps
  | file f => exact f.keeps

/-- **Unbroken literals**: in the text of a node, whatever the style is, a literal in quotes
stands on one line, and so does an entry from the end of its name to its literal, if no name of
the option has a quote or a newline in it. These texts occur one behind the other, in the order of
the options. -/
theorem print_unbroken (n : Node) (style : Style) {text : String} (hp : n.print style = .ok text) :
    Occur (keptOf n.allOptions) text.toList ∧
      ∀ o ∈ n.allOptions, o.PlainNames →
        (∀ type value, o.value = .literal type value → type.isQuoted →
          ∃ literal, type.format value = .ok literal ∧
            ∃ l ∈ lines text.toList, literal.toList <:+: l) ∧
        ∀ es, o.value = .entries es → ∀ e ∈ es, e.type.isQuoted →
          ∃ literal, e.literal = .ok literal ∧ ∃ l ∈ lines text.toList,
            lastWord e.name.toList ++ (": " ++ literal).toList <:+: l := by
  obtain ⟨hf, ht⟩ := print_eq_ok.1 hp
  obtain ⟨-, ho⟩ := n.keeps.run (.ofStyle style) rfl ((n.error_emit _).trans hf)
  change Occur (keptOf n.allOptions) (n.emit (.ofStyle style)).text at ho
  rw [← String.toList_ofList (l := (n.emit (.ofStyle style)).text), ht] at ho
  refine ⟨ho, fun o hm hn => ?_⟩
  have hq : ∀ q ∈ o.keptTexts, '\n' ∉ q → ∃ l ∈ lines text.toList, q <:+: l := by
    intro q hq hl
    refine exists_line_of_infix hl (ho.infix_of_mem (List.mem_flatMap.2 ⟨o, hm, ?_⟩))
    rwa [OptionDecl.kept, if_pos hn]
  refine ⟨fun type value hv hi => ?_, fun es hv e he hi => ?_⟩
  · obtain ⟨literal, hl, hb⟩ := FieldType.format_quoted hi value
    refine ⟨literal, hl, hq _ ?_ hb.newline_not_mem⟩
    simp [OptionDecl.keptTexts, hv, quotedText_eq hi hl]
  · obtain ⟨literal, hl, hb⟩ := FieldType.format_quoted hi e.value
    have hw : '\n' ∉ lastWord e.name.toList := fun h =>
      (OptionDecl.plain_entry hn hv e he).2 (mem_of_mem_lastWord h)
    refine ⟨literal, hl, hq _ ?_ (by simp [hw, hb.newline_not_mem])⟩
    rw [OptionDecl.keptTexts, hv]
    refine List.mem_flatMap.2 ⟨e, he, ?_⟩
    simp [OptionEntry.keptText_eq hi hl]

/-- A field with a text full of quotes, backslashes and blanks, and with entries, in lines of one
character. -/
theorem print_unbroken_narrow :
    let note : OptionDecl := ⟨.field, "note", [], .literal .string (.text "a: \"b  c\\")⟩
    let tags : OptionDecl := ⟨.field, "(tags)", [],
      .entries [⟨"first key", .string, .text "x : y\n"⟩, ⟨"raw", .bytes, .bytes [32, 34, 255]⟩]⟩
    let n := field { type := .string, name := "title", number := 1, options := [note, tags] }
    ∃ text, n.print ⟨[' '], 2, 1, by decide, by decide⟩ = .ok text ∧ note.PlainNames ∧
      tags.PlainNames ∧
      (∃ l ∈ lines text.toList, "\"a: \\\"b  c\\\\\"".toList <:+: l) ∧
      (∃ l ∈ lines text.toList, "key: \"x : y\\n\"".toList <:+: l) ∧
      ∃ l ∈ lines text.toList, "raw: \" \\\"\\377\"".toList <:+: l := by
  intro note tags n
  have hf : n.script.fault? = none := by decide +kernel
  have hp : n.print ⟨[' '], 2, 1, by decide, by decide⟩ = .ok _ := print_eq_ok.2 ⟨hf, rfl⟩
  have hn : note.PlainNames := by decide
  have ht : tags.PlainNames := by decide
  obtain ⟨-, h⟩ := print_unbroken n _ hp
  obtain ⟨a, ha, hla⟩ := (h note (by simp [n, allOptions]) hn).1 _ _ rfl rfl
  have he := (h tags (by simp [n, allOptions]) ht).2 _ rfl
  obtain ⟨b, hb, hlb⟩ := he _ List.mem_cons_self rfl
  obtain ⟨c, hc, hlc⟩ := he _ (List.mem_cons_of_mem _ List.mem_cons_self) rfl
  cases ha
  cases hb
  cases hc
  exact ⟨_, hp, hn, ht, hla, hlb, hlc⟩

end Node

end ProtoSchema
