import ProtoSchema.Node.Basic
import ProtoSchema.Proofs.Fault
import ProtoSchema.Proofs.Tree

/-!
The outline of a text: the elements it is made of, each at its place.

A script interleaves registration and writing element by element, so it does not say where an
element ends. The outline does, and keeps the two apart: an element has its registration beside it,
and its place is what is written in front of it when nothing is registered at all.
-/

namespace ProtoSchema

open Print Usage

/-! ### Scripts without registration -/

namespace Print

mutual

def Step.unchecked : Step → Script
  | .emit text => [.emit text]
  | .comment lines => [.comment lines]
  | .indent levels => [.indent levels]
  | .unindent levels => [.unindent levels]
  | .body steps => [.body (Script.unchecked steps)]
  | .fail (.conflict _) => []
  | .fail (.listing _) => []
  | .fail error => [.fail error]

/-- The script with all registrations left out: nothing in it fails since something is not
registered. -/
def Script.unchecked : Script → Script
  | [] => []
  | step :: steps => step.unchecked ++ Script.unchecked steps

end

namespace Script

@[simp] lemma unchecked_nil : unchecked [] = [] := rfl

lemma unchecked_cons (step : Step) (s : Script) :
    unchecked (step :: s) = step.unchecked ++ unchecked s := rfl

@[simp] lemma unchecked_append (a b : Script) :
    unchecked (a ++ b) = unchecked a ++ unchecked b := by
  induction a with
  | nil => rfl
  | cons step a ih => rw [List.cons_append, unchecked_cons, unchecked_cons, ih, List.append_assoc]

lemma unchecked_body (s : Script) : unchecked [.body s] = [.body s.unchecked] := rfl

lemma fault?_unchecked_append {a b : Script} : (a ++ b).unchecked.fault? = none ↔
    a.unchecked.fault? = none ∧ b.unchecked.fault? = none := by
  rw [unchecked_append, fault?_append, Option.or_eq_none_iff]

end Script

@[simp] lemma unchecked_guard (r : Option Rejection) : Script.unchecked (guard r) = [] := by
  cases r with
  | none => rfl
  | some r => cases r <;> rfl

mutual

lemma Step.unchecked_of_fault? : ∀ {step : Step}, step.fault? = none → step.unchecked = [step]
  | .emit _, _ | .comment _, _ | .indent _, _ | .unindent _, _ => rfl
  | .body steps, h => by rw [Step.unchecked, Script.unchecked_of_fault? h]
  | .fail _, h => by simp [Step.fault?] at h

/-- Where no registration is refused, leaving them out changes nothing. -/
lemma Script.unchecked_of_fault? : ∀ {s : Script}, s.fault? = none → s.unchecked = s
  | [], _ => rfl
  | step :: steps, h => by
    obtain ⟨hs, hr⟩ := Option.or_eq_none_iff.1 h
    rw [Script.unchecked_cons, Step.unchecked_of_fault? hs, Script.unchecked_of_fault? hr]
    rfl

end

mutual

lemma Step.fault?_unchecked_ne (r : Rejection) :
    ∀ step : Step, Script.fault? step.unchecked ≠ some (.ofRejection r)
  | .emit _ | .comment _ | .indent _ | .unindent _ => by simp [Step.unchecked, Step.fault?]
  | .body steps => by
    simpa [Step.unchecked, Step.fault?] using Script.fault?_unchecked_ne r steps
  | .fail e => by cases e <;> cases r <;> simp [Step.unchecked, Step.fault?, PrintError.ofRejection]

/-- With the registrations left out, no rejection is left. -/
lemma Script.fault?_unchecked_ne (r : Rejection) :
    ∀ s : Script, s.unchecked.fault? ≠ some (.ofRejection r)
  | [] => by simp
  | step :: steps => by
    rw [Script.unchecked_cons, Script.fault?_append, ne_eq, Option.or_eq_some_iff]
    rintro (h | ⟨-, h⟩)
    · exact Step.fault?_unchecked_ne r step h
    · exact Script.fault?_unchecked_ne r steps h

end

/-! ### Scripts in which nothing is registered -/

@[simp] lemma Step.unchecked_literal (before : String) (literal : Except FormatError String)
    (after : String) :
    (Step.literal before literal after).unchecked = [.literal before literal after] := by
  cases literal <;> rfl

@[simp] lemma Step.unchecked_numbered (numbers : List Int) (text : String) :
    (Step.numbered numbers text).unchecked = [.numbered numbers text] := by
  rcases numbered_eq numbers text with h | h <;> rw [h] <;> rfl

namespace Script

lemma unchecked_flatten {ss : List Script} (h : ∀ s ∈ ss, unchecked s = s) :
    unchecked ss.flatten = ss.flatten := by
  induction ss with
  | nil => rfl
  | cons s ss ih =>
    obtain ⟨hs, hss⟩ := List.forall_mem_cons.1 h
    rw [List.flatten_cons, unchecked_append, hs, ih hss]

lemma unchecked_flatMap {α : Type} {script : α → Script} {as : List α}
    (h : ∀ a ∈ as, unchecked (script a) = script a) :
    unchecked (as.flatMap script) = as.flatMap script :=
  unchecked_flatten (List.forall_mem_map.2 h)

lemma unchecked_intercalate {between : Script} {ss : List Script} (hb : unchecked between = between)
    (h : ∀ s ∈ ss, unchecked s = s) :
    unchecked (between.intercalate ss) = between.intercalate ss := by
  induction ss with
  | nil => rfl
  | cons s ss ih =>
    obtain ⟨hs, hss⟩ := List.forall_mem_cons.1 h
    by_cases hn : ss = []
    · rw [hn, List.intercalate_singleton, hs]
    · rw [List.intercalate_cons_of_ne_nil hn, unchecked_append, unchecked_append, hs, hb, ih hss]

end Script

lemma unchecked_scope {header : String} {sections : List Script}
    (h : ∀ s ∈ sections, Script.unchecked s = s) :
    Script.unchecked (scope header sections) = scope header sections := by
  have hs : Script.unchecked (sections.flatMap fun s => [.emit "\n", .body s]) =
      sections.flatMap fun s => [.emit "\n", .body s] :=
    Script.unchecked_flatMap fun s hs => by simp [Script.unchecked_cons, Step.unchecked, h s hs]
  unfold scope
  split <;> simp [Script.unchecked_cons, Step.unchecked, hs]

lemma unchecked_sectionFor {α : Type} {elements : List α} {script : Script}
    (h : script.unchecked = script) : ∀ s ∈ sectionFor elements script, Script.unchecked s = s := by
  unfold sectionFor
  split
  · simp
  · simpa using h

end Print

namespace OptionDecl

lemma unchecked_entries (entries : List OptionEntry) (after : String) :
    Script.unchecked (entries.map (OptionEntry.step · after)) =
      entries.map (OptionEntry.step · after) := by
  induction entries with
  | nil => rfl
  | cons e entries ih =>
    have he : (e.step after).unchecked = [e.step after] := Step.unchecked_literal ..
    rw [List.map_cons, Script.unchecked_cons, he, ih]
    rfl

lemma unchecked_inlineScript (o : OptionDecl) : o.inlineScript.unchecked = o.inlineScript := by
  unfold inlineScript
  split <;> simp [Script.unchecked_cons, Step.unchecked, unchecked_entries]

lemma unchecked_script (o : OptionDecl) : o.script.unchecked = o.script := by
  unfold script
  split
  · exact o.unchecked_inlineScript
  · unfold statementScript
    split <;> simp [Script.unchecked_cons, Step.unchecked, unchecked_entries]

lemma unchecked_bracketScript (options : List OptionDecl) :
    (bracketScript options).unchecked = bracketScript options := by
  have hi : Script.unchecked (List.intercalate [.emit ", "] (options.map inlineScript)) =
      List.intercalate [.emit ", "] (options.map inlineScript) :=
    Script.unchecked_intercalate rfl (List.forall_mem_map.2 fun o _ => o.unchecked_inlineScript)
  unfold bracketScript
  split
  · rfl
  · simp [Script.unchecked_cons, Step.unchecked, hi]

lemma unchecked_flatMap (options : List OptionDecl) :
    Script.unchecked (options.flatMap script) = options.flatMap script :=
  Script.unchecked_flatMap fun o _ => o.unchecked_script

end OptionDecl

lemma unchecked_lineScript (comment : List String) (number : Int) (text : String)
    (options : List OptionDecl) :
    Script.unchecked (lineScript comment number text options) =
      lineScript comment number text options := by
  simp [lineScript, Script.unchecked_cons, Step.unchecked, OptionDecl.unchecked_bracketScript]

lemma Reservation.unchecked_script (r : Reservation) : r.script.unchecked = r.script := by
  simp [script, Script.unchecked_cons, Step.unchecked]

lemma Oneof.unchecked_script (o : Oneof) : o.script.unchecked = o.script := by
  have hm : Script.unchecked (o.members.flatMap Field.script) = o.members.flatMap Field.script :=
    Script.unchecked_flatMap fun f _ => unchecked_lineScript ..
  rw [script, Script.unchecked_cons, unchecked_scope]
  · rfl
  · exact List.forall_mem_append.2
      ⟨unchecked_sectionFor (OptionDecl.unchecked_flatMap _), unchecked_sectionFor hm⟩

lemma Method.unchecked_script (m : Method) : m.script.unchecked = m.script := by
  unfold script
  split <;> simp [Script.unchecked_cons, Step.unchecked, OptionDecl.unchecked_flatMap]

/-! ### Passages and sites -/

inductive Passage where
  /-- Steps in which nothing is registered. -/
  | text (steps : Script)
  /-- An element made of passages, with the rejection if it is not registered. -/
  | element (rejection : Option Rejection) (node : Node) (passages : List Passage)
  /-- Passages one indent step further in. -/
  | body (passages : List Passage)

/-- An element at its place: the steps in front of it, and the rejection if it is not registered. -/
structure Site where
  before : Script
  node : Node
  rejection : Option Rejection

/-- The same element, with more in front of it. -/
def Site.behind (s : Script) (t : Site) : Site := { t with before := s ++ t.before }

namespace Passage

mutual

def script : Passage → Script
  | text steps => steps
  | element rejection _ passages => guard rejection ++ scripts passages
  | body passages => [.body (scripts passages)]

def scripts : List Passage → Script
  | [] => []
  | p :: ps => p.script ++ scripts ps

end

mutual

/-- The elements of a passage. An element is registered before those inside of it. -/
def sites : Passage → List Site
  | text _ => []
  | element rejection node passages => ⟨[], node, rejection⟩ :: allSites passages
  | body passages => (allSites passages).map (.behind [.indent none])

def allSites : List Passage → List Site
  | [] => []
  | p :: ps => p.sites ++ (allSites ps).map (.behind p.script.unchecked)

end

@[simp] lemma scripts_append (ps qs : List Passage) :
    scripts (ps ++ qs) = scripts ps ++ scripts qs := by
  induction ps with
  | nil => rfl
  | cons p ps ih => rw [List.cons_append, scripts, scripts, ih, List.append_assoc]

end Passage

/-! ### Outlines of bodies -/

/-- The passages of elements that are registered one after another, and the scope they leave. -/
def registeredPassages {σ α : Type} (register : σ → α → σ × Option Rejection) (node : α → Node)
    (passages : α → List Passage) : σ → List α → List Passage × σ
  | s, [] => ([], s)
  | s, a :: as =>
    let r := register s a
    let rest := registeredPassages register node passages r.1 as
    (.element r.2 (node a) (passages a) :: rest.1, rest.2)

/-- A node in which nothing is registered. -/
def Node.whole (n : Node) : List Passage := [.text n.script]

def reservedPassages (reservations : List Reservation) : List Passage × FieldScope :=
  registeredPassages FieldScope.registerReservation Node.reservation
    (fun r => (Node.reservation r).whole) {} reservations

def fieldPassages {α : Type} (identity : α → FieldIdentity) (node : α → Node) (s : FieldScope)
    (as : List α) : List Passage :=
  (registeredPassages (fun (s : FieldScope) a => rejecting (s.register (identity a))) node
    (fun a => (node a).whole) s as).1

/-- A section for some elements, unless there are none. -/
def passagesFor {α : Type} (elements : List α) (passages : List Passage) : List (List Passage) :=
  if elements.isEmpty then [] else [passages]

def optionPassages (options : List OptionDecl) : List (List Passage) :=
  passagesFor options [.text (options.flatMap OptionDecl.script)]

/-- A commented body in braces, each of its sections below a blank line. -/
def scopePassages (comment : List String) (header : String) (sections : List (List Passage)) :
    List Passage :=
  if sections.isEmpty then [.text [.comment comment, .emit (header ++ " \x7b"), .emit "\x7d\n"]]
  else
    .text [.comment comment, .emit (header ++ " \x7b"), .emit "\n"] ::
      (sections.flatMap (fun ps => [.text [.emit "\n"], .body ps]) ++ [.text [.emit "\x7d\n"]])

def EnumDecl.outline (e : EnumDecl) : List Passage :=
  let reserved := reservedPassages e.reservations
  scopePassages e.comment ("enum " ++ e.name)
    (optionPassages e.options ++ passagesFor e.reservations reserved.1 ++
      passagesFor e.values (fieldPassages EnumValue.identity .enumValue reserved.2 e.values))

def Service.outline (s : Service) : List Passage :=
  scopePassages s.comment ("service " ++ s.name)
    (optionPassages s.options ++
      passagesFor s.methods (fieldPassages Method.identity .method {} s.methods))

def Extension.outline (e : Extension) : List Passage :=
  scopePassages e.comment ("extend " ++ e.typeName)
    (passagesFor e.fields (fieldPassages Field.identity .field {} e.fields))

mutual

def Message.outline : Message → List Passage
  | ⟨name, comment, options, reservations, blocks⟩ =>
    let reserved := reservedPassages reservations
    scopePassages comment ("message " ++ name)
      (optionPassages options ++ passagesFor reservations reserved.1 ++
        Member.sectionPassages ⟨reserved.2, { owner := some name }⟩ blocks)

def Member.outline : Member → List Passage
  | .field f => (Node.field f).whole
  | .map f => (Node.mapField f).whole
  | .oneof o => (Node.oneof o).whole
  | .message m => Message.outline m
  | .enum e => e.outline

def Member.blockPassages : MemberScope → List Member → List Passage × MemberScope
  | s, [] => ([], s)
  | s, m :: ms =>
    let r := m.register s
    let rest := Member.blockPassages r.1 ms
    (.element r.2 m.node (Member.outline m) :: rest.1, rest.2)

/-- A section for each block. -/
def Member.sectionPassages : MemberScope → List (List Member) → List (List Passage)
  | _, [] => []
  | s, b :: bs =>
    let first := Member.blockPassages s b
    first.1 :: Member.sectionPassages first.2 bs

end

namespace Declaration

def outline : Declaration → List Passage
  | message m => m.outline
  | enum e => e.outline
  | service s => s.outline
  | extension e => e.outline

def blocksOutline : TypeScope → List (List Declaration) → List Passage
  | _, [] => []
  | s, b :: bs =>
    let block := registeredPassages register node outline s b
    .text [.emit "\n"] :: (block.1 ++ blocksOutline block.2 bs)

end Declaration

namespace File

/-- All that stands in front of the declarations. -/
def headScript (f : File) : Script :=
  .comment f.comment :: .emit "syntax = \"proto3\";\n" ::
    (f.packageScript ++ part f.imports Import.script ++ part f.options OptionDecl.script)

def outline (f : File) : List Passage := .text f.headScript :: Declaration.blocksOutline {} f.blocks

end File

namespace Node

def outline : Node → List Passage
  | enum e => e.outline
  | message m => m.outline
  | service s => s.outline
  | extension e => e.outline
  | file f => f.outline
  | n => n.whole

/-- All that is registered while the node is written, in the order in which it is written. -/
def sites (n : Node) : List Site := Passage.allSites n.outline

end Node

/-! ### An outline is of the script -/

section Registered

variable {σ α : Type} {register : σ → α → σ × Option Rejection} {node : α → Node}
  {passages : α → List Passage} {script : α → Script}

lemma registeredPassages_cons (s : σ) (a : α) (as : List α) :
    registeredPassages register node passages s (a :: as) =
      (.element (register s a).2 (node a) (passages a) ::
          (registeredPassages register node passages (register s a).1 as).1,
        (registeredPassages register node passages (register s a).1 as).2) := rfl

lemma registeredPassages_snd (script : α → Script) (s : σ) (as : List α) :
    (registeredPassages register node passages s as).2 = (registered register script s as).2 := by
  induction as generalizing s with
  | nil => rfl
  | cons a as ih => simp only [registeredPassages_cons, registered_cons, ih]

lemma scripts_registeredPassages {as : List α}
    (h : ∀ a ∈ as, Passage.scripts (passages a) = script a) (s : σ) :
    Passage.scripts (registeredPassages register node passages s as).1 =
      (registered register script s as).1 := by
  induction as generalizing s with
  | nil => rfl
  | cons a as ih =>
    obtain ⟨ha, has⟩ := List.forall_mem_cons.1 h
    simp only [registeredPassages_cons, registered_cons, Passage.scripts, Passage.script,
      ha, ih has]

end Registered

lemma Node.scripts_whole (n : Node) : Passage.scripts n.whole = n.script := List.append_nil _

lemma reservedPassages_snd (reservations : List Reservation) :
    (reservedPassages reservations).2 = (reservedScript reservations).2 :=
  registeredPassages_snd ..

lemma scripts_reservedPassages (reservations : List Reservation) :
    Passage.scripts (reservedPassages reservations).1 = (reservedScript reservations).1 :=
  scripts_registeredPassages (fun r _ => (Node.reservation r).scripts_whole) _

lemma scripts_fieldPassages {α : Type} {identity : α → FieldIdentity} {node : α → Node}
    (s : FieldScope) (as : List α) :
    Passage.scripts (fieldPassages identity node s as) =
      fieldScript identity (fun a => (node a).script) s as :=
  scripts_registeredPassages (fun a _ => (node a).scripts_whole) s

lemma map_scripts_passagesFor {α : Type} (elements : List α) (passages : List Passage) :
    (passagesFor elements passages).map Passage.scripts =
    sectionFor elements (Passage.scripts passages) := by
  unfold passagesFor sectionFor
  split <;> rfl

lemma map_scripts_optionPassages (options : List OptionDecl) :
    (optionPassages options).map Passage.scripts = optionSection options := by
  rw [optionPassages, map_scripts_passagesFor, Passage.scripts, Passage.script, Passage.scripts,
    List.append_nil]
  rfl

lemma scripts_bodies (sections : List (List Passage)) :
    Passage.scripts (sections.flatMap fun ps => [.text [.emit "\n"], .body ps]) =
      (sections.map Passage.scripts).flatMap fun s => [.emit "\n", .body s] := by
  induction sections with
  | nil => rfl
  | cons ps sections ih =>
    rw [List.flatMap_cons, Passage.scripts_append, ih, List.map_cons, List.flatMap_cons]
    rfl

lemma scripts_scopePassages (comment : List String) (header : String)
    (sections : List (List Passage)) :
    Passage.scripts (scopePassages comment header sections) =
      .comment comment :: scope header (sections.map Passage.scripts) := by
  unfold scopePassages scope
  by_cases hs : sections.isEmpty
  · obtain rfl : sections = [] := by simpa using hs
    rfl
  · simp only [hs, Bool.false_eq_true, if_false, Passage.scripts, Passage.scripts_append,
      scripts_bodies, Passage.script, List.isEmpty_map]
    simp

lemma EnumDecl.scripts_outline (e : EnumDecl) : Passage.scripts e.outline = e.script := by
  simp only [outline, scripts_scopePassages, List.map_append, map_scripts_optionPassages,
    map_scripts_passagesFor, scripts_reservedPassages, scripts_fieldPassages, reservedPassages_snd]
  rfl

lemma Service.scripts_outline (s : Service) : Passage.scripts s.outline = s.script := by
  simp only [outline, scripts_scopePassages, List.map_append, map_scripts_optionPassages,
    map_scripts_passagesFor, scripts_fieldPassages]
  rfl

lemma Extension.scripts_outline (e : Extension) : Passage.scripts e.outline = e.script := by
  simp only [outline, scripts_scopePassages, map_scripts_passagesFor, scripts_fieldPassages]
  rfl

lemma Message.outline_eq (m : Message) :
    m.outline = scopePassages m.comment ("message " ++ m.name)
      (optionPassages m.options ++ passagesFor m.reservations (reservedPassages m.reservations).1 ++
        Member.sectionPassages ⟨(reservedPassages m.reservations).2, { owner := some m.name }⟩
          m.blocks) := by
  cases m
  rfl

lemma Member.blockPassages_eq (s : MemberScope) (ms : List Member) :
    Member.blockPassages s ms =
      registeredPassages Member.register Member.node Member.outline s ms := by
  induction ms generalizing s with
  | nil => rfl
  | cons m ms ih => simp only [Member.blockPassages, registeredPassages_cons, ih]

lemma Member.map_scripts_sectionPassages {blocks : List (List Member)}
    (h : ∀ m ∈ blocks.flatten, Passage.scripts (Member.outline m) = m.script) (s : MemberScope) :
    (Member.sectionPassages s blocks).map Passage.scripts = Member.sections s blocks := by
  induction blocks generalizing s with
  | nil => rfl
  | cons b bs ih =>
    rw [List.flatten_cons, List.forall_mem_append] at h
    simp only [Member.sectionPassages, Member.sections, Member.blockPassages_eq,
      Member.blockScript_eq, List.map_cons, ih h.2, scripts_registeredPassages h.1,
      registeredPassages_snd Member.script]

lemma Message.scripts_outline (m : Message) : Passage.scripts m.outline = m.script := by
  induction m using Message.induction with
  | step m ih =>
    have hm : ∀ x ∈ m.blocks.flatten, Passage.scripts (Member.outline x) = x.script := by
      rintro (f | f | o | n | e) hx
      · exact Node.scripts_whole _
      · exact Node.scripts_whole _
      · exact Node.scripts_whole _
      · exact ih n hx
      · exact e.scripts_outline
    rw [Message.outline_eq, Message.script_eq, scripts_scopePassages, List.map_append,
      List.map_append, map_scripts_optionPassages, map_scripts_passagesFor,
      scripts_reservedPassages, reservedPassages_snd, Member.map_scripts_sectionPassages hm]

lemma Declaration.scripts_outline (d : Declaration) : Passage.scripts d.outline = d.script := by
  cases d with
  | message m => exact m.scripts_outline
  | enum e => exact e.scripts_outline
  | service s => exact s.scripts_outline
  | extension e => exact e.scripts_outline

lemma Declaration.scripts_blocksOutline (s : TypeScope) (blocks : List (List Declaration)) :
    Passage.scripts (blocksOutline s blocks) = blocksScript s blocks := by
  induction blocks generalizing s with
  | nil => rfl
  | cons b bs ih =>
    have hb : Passage.scripts (registeredPassages register node outline s b).1 =
        (registered register script s b).1 :=
      scripts_registeredPassages (fun d _ => d.scripts_outline) s
    rw [blocksOutline, Passage.scripts, Passage.scripts_append, ih, hb,
      registeredPassages_snd script]
    rfl

lemma File.scripts_outline (f : File) : Passage.scripts f.outline = f.script := by
  rw [outline, Passage.scripts, Declaration.scripts_blocksOutline, Passage.script, headScript,
    File.script]
  simp

/-- An outline is made of the steps of the script, in their order. -/
theorem Node.scripts_outline (n : Node) : Passage.scripts n.outline = n.script := by
  cases n with
  | enum e => exact e.scripts_outline
  | message m => exact m.scripts_outline
  | service s => exact s.scripts_outline
  | extension e => exact e.scripts_outline
  | file f => exact f.scripts_outline
  | _ => exact Node.scripts_whole _

end ProtoSchema
