import ProtoSchema.Proofs.Maintenance
import ProtoSchema.Session.Eval

/-!
Whatever a session constructs is well formed.

Calls and actions give well formed values if their arguments are, so do expressions, and a step that
fails leaves drafts and variables that are as good as before. Nodes come from building and from
named parts only, and both look at all they are given.
-/

namespace ProtoSchema.Session

open Build

namespace Maintains

/-! ### Calls -/

lemma assembled (kind : Kind) {ps : Parts} (h : ps.WellFormed) :
    Maintains (assembled kind ps) Value.WellFormed := by
  refine ofExcept _ fun v hv => ofParts_wellFormed kind h v ?_
  unfold assemble at hv
  cases hp : ofParts kind ps with
  | sound w =>
    rw [hp] at hv
    cases hv
    rfl
  | faulty faults =>
    rw [hp] at hv
    cases hv

lemma startField {type name : Value} (ht : type.WellFormed) (hn : name.WellFormed) (number : Value)
    {change : FieldDraft → Except Refusal FieldDraft}
    (hc : ∀ d e, (Draft.field d).WellFormed → change d = .ok e → (Draft.field e).WellFormed) :
    Maintains (startField type name number change) Value.WellFormed := by
  refine (quantity number).bind fun n _ => startDraft fun e he => ?_
  cases hs : FieldDraft.start type name n with
  | error r => simp [hs, Except.bind] at he
  | ok d =>
    simp only [hs, Except.bind] at he
    exact hc d e (.startField ht hn hs) he

lemma targetOf {v : Value} : Maintains (targetOf v) Value.WellFormed := by
  cases v with
  | node n => exact map (ofOption fun _ _ => trivial) fun _ (_ : True) => .atom trivial
  | draft id kind =>
    refine (readDraft id).bind fun d hd => ?_
    cases d with
    | option d => exact pure (hd.part "option_type" rfl)
    | _ => exact unsupported
  | _ => exact unsupported

lemma requireTargets (expected : Value) (vs : List Value) :
    Maintains (requireTargets expected vs) fun _ => True := by
  induction vs with
  | nil => exact pure trivial
  | cons v vs ih => exact targetOf.bind fun _ _ => (requireTarget _ _).bind fun _ _ => ih

lemma piecesOf {v : Value} (h : v.WellFormed) : Maintains (piecesOf v) fun _ => True :=
  (contents h).bind fun _ _ => (ofOption fun _ _ => trivial).bind fun _ (_ : True) => pure trivial

lemma segmentsOf (quoteAware : Bool) (pieces : List (List Char)) :
    (segmentsOf quoteAware pieces).WellFormed :=
  .list (Value.WellFormed.map fun s _ => by simp [segmentValue])

lemma callee (c : Callee) {args : List Value} (h : ∀ v ∈ args, v.WellFormed) :
    Maintains (c.apply args) Value.WellFormed := by
  unfold Callee.apply
  -- one case for each way to call, in the order of the definition
  split
  · exact pure (.atom trivial)
  · exact assembled _ (by simp_all)
  · exact assembled _ (by simp_all)
  · exact map (range _ _) fun _ _ => .atom trivial
  · exact assembled _ (by simp_all)
  · exact assembled _ (by simp_all)
  · exact newDraft (by simp_all [Draft.WellFormed, Draft.parts])
  · exact newDraft (by simp_all [Draft.WellFormed, Draft.parts])
  · exact startDraft fun _ hd => .ofItems hd
  · exact startField (by simp_all) (by simp_all) _ fun _ _ hd he => Except.ok.inj he ▸ hd
  · exact startField (by simp_all) (by simp_all) _ fun _ _ hd he => hd.setRepeated he
  · exact startField (by simp_all) (by simp_all) _ fun _ _ hd he => hd.setOptional he
  · exact startField (by simp_all) (by simp_all) _ fun _ _ hd he => hd.setTypeName (by simp_all) he
  · exact startField (by simp_all) (by simp_all) _ fun _ _ hd he => hd.setTypeName (by simp_all) he
  · exact (unlessRefused _).bind fun _ _ => (quantity _).bind fun _ _ => startDraft fun _ hd =>
      .startMapField (by simp_all) (by simp_all) (by simp_all) hd
  · exact newDraft (by simp_all [Draft.WellFormed, Draft.parts])
  · exact (quantity _).bind fun _ _ => startDraft fun _ hd => .startEnumValue (by simp_all) hd
  · exact newDraft (by simp_all [Draft.WellFormed, Draft.parts])
  · exact newDraft (by simp_all [Draft.WellFormed, Draft.parts])
  · exact newDraft (by simp_all [Draft.WellFormed, Draft.parts])
  · exact newDraft (by simp_all [Draft.WellFormed, Draft.parts])
  · exact newDraft (by simp_all [Draft.WellFormed, Draft.parts])
  · exact newDraft (by simp_all [Draft.WellFormed, Draft.parts])
  · exact (unlessRefused _).bind fun _ _ => pure (.atom trivial)
  · exact (contents (by simp_all)).bind fun _ hv => (buildAll (acceptTarget _) hv).bind fun _ hn =>
      pure (Value.wellFormed_nodeList.2 hn)
  · exact (contents (by simp_all)).bind fun _ _ => (requireTargets _ _).bind fun _ _ =>
      pure (.atom trivial)
  · exact (piecesOf (by simp_all)).bind fun _ _ => pure (segmentsOf _ _)
  · exact (piecesOf (by simp_all)).bind fun _ _ => pure (segmentsOf _ _)
  · exact pure (.atom trivial)
  · exact unsupported

/-! ### Changes of drafts -/

lemma given {usual : Value} (hu : usual.WellFormed) {args : List Value}
    (h : ∀ v ∈ args, v.WellFormed) :
    Maintains (given usual args) Value.WellFormed := by
  unfold Session.given
  split
  · exact pure hu
  · exact pure (h _ List.mem_cons_self)
  · exact unsupported

lemma acceptUnless (refusal? : Node → Option Refusal) (n : Node) :
    Maintains (acceptUnless refusal? n) fun _ => True := unlessRefused _

/-- A change of a draft that may be refused. -/
lemma change {α : Type} {draft : α → Draft} {x : Except Refusal α}
    (h : ∀ a, x = .ok a → (draft a).WellFormed) :
    Maintains (draft <$> Run.ofExcept .refused x) Draft.WellFormed :=
  map (ofExcept _ h) fun _ ha => ha

/-- A change of a draft by what is built for it. -/
lemma changeBuilt {accept : Node → Run Unit} (ha : ∀ n, Maintains (accept n) fun _ => True)
    {args : List Value} (h : ∀ v ∈ args, v.WellFormed) {next : List Node → Draft}
    (hn : ∀ ns, (∀ n ∈ ns, n.WellFormed) → (next ns).WellFormed) :
    Maintains (Run.buildAll accept args >>= fun ns => Pure.pure (next ns)) Draft.WellFormed :=
  (buildAll ha h).bind fun ns hns => pure (hn ns hns)

lemma changed {d : Draft} (hd : d.WellFormed) (a : Action) {args : List Value}
    (h : ∀ v ∈ args, v.WellFormed) : Maintains (changed d a args) Draft.WellFormed := by
  have hn := unsupported (P := Draft.WellFormed)
  unfold Session.changed
  -- one case for each action, and in it one for each kind of draft that takes it
  split
  · exact ofExcept _ fun e he => hd.setComment h he
  · exact (ofOption fun _ _ => trivial).bind fun _ (_ : True) =>
      changeBuilt (acceptTarget _) h fun _ ho => hd.addOptions ho
  · split
    · exact change fun _ he => hd.setValue (by simp_all) (by simp_all) he
    · exact hn
  · split
    · exact change fun _ he => hd.setValue (Value.wellFormed_fieldType _) (.tuple h) he
    · exact hn
  · split
    · exact change fun _ he => hd.addRanges h he
    · exact hn
  · split
    · exact (range _ _).bind fun r _ => change fun _ he =>
        hd.addRanges (List.forall_mem_singleton.2 (Value.wellFormed_range r)) he
    · exact hn
  · split
    · exact (given (Value.wellFormed_bool _) h).bind fun _ _ => change fun _ he => hd.setRepeated he
    · exact hn
  · split
    · exact (given (Value.wellFormed_bool _) h).bind fun _ _ => change fun _ he => hd.setOptional he
    · exact hn
  · split
    · exact change fun _ he => hd.setTypeName (by simp_all) he
    · exact change fun _ he => hd.setValueTypeName (by simp_all) he
    · exact hn
  · split
    · exact changeBuilt acceptAll h fun _ hns => hd.addNodes "reservations" rfl hns rfl
    · exact changeBuilt acceptAll h fun _ hns => hd.addNodes "reservations" rfl hns rfl
    · exact hn
  · split
    · exact changeBuilt acceptAll h fun _ hns => hd.addNodes "enum_values" rfl hns rfl
    · exact hn
  · split
    · exact changeBuilt (acceptUnless _) h fun _ hns => hd.addBlock rfl hns rfl
    · exact changeBuilt (acceptUnless _) h fun _ hns => hd.addNodes "members" rfl hns rfl
    · exact changeBuilt (acceptUnless _) h fun _ hns => hd.addNodes "extension_fields" rfl hns rfl
    · exact hn
  · split
    · exact changeBuilt acceptAll h fun _ hns => hd.addBlock rfl hns rfl
    · exact changeBuilt acceptAll h fun _ hns => hd.addBlock rfl hns rfl
    · exact hn
  · split
    · exact changeBuilt acceptAll h fun _ hns => hd.addBlock rfl hns rfl
    · exact changeBuilt acceptAll h fun _ hns => hd.addBlock rfl hns rfl
    · exact hn
  · split
    · exact changeBuilt acceptAll h fun _ hns => hd.addBlock rfl hns rfl
    · exact hn
  · split
    · exact changeBuilt acceptAll h fun _ hns => hd.addBlock rfl hns rfl
    · exact hn
  · split
    · exact changeBuilt acceptAll h fun _ hns => hd.addNodes "explicit_imports" rfl hns rfl
    · exact hn
  · split
    · exact changeBuilt acceptAll h fun _ hns => hd.addNodes "rpcs" rfl hns rfl
    · exact hn
  · obtain ⟨hname, hs⟩ := List.forall_mem_cons.1 h
    split
    · exact (given (Value.wellFormed_bool _) hs).bind fun _ hv => pure (hd.setRequest hname hv)
    · exact hn
  · obtain ⟨hname, hs⟩ := List.forall_mem_cons.1 h
    split
    · exact (given (Value.wellFormed_bool _) hs).bind fun _ hv => pure (hd.setResponse hname hv)
    · exact hn
  · split
    · exact pure (hd.replace "package" (by simp_all) rfl)
    · exact hn
  · exact hn

/-! ### Questions -/

lemma displayed (v : Value) : Maintains (displayed v) fun _ => True := by
  unfold Session.displayed
  split
  · exact unsupported
  · exact unsupported
  · exact pure trivial

lemma formatted (type : FieldType) (v : Value) : Maintains (formatted type v) fun _ => True := by
  unfold Session.formatted
  split
  · split
    · exact fail _
    · exact ofExcept _ fun _ _ => trivial
  · split
    · split <;> exact pure trivial
    · split
      · exact unsupported
      · exact (displayed v).bind fun _ _ => ofExcept _ fun _ _ => trivial

lemma partOf {v : Value} (h : v.WellFormed) (name : String) :
    Maintains (partOf v name) Value.WellFormed := by
  unfold Session.partOf
  split
  · split
    · exact pure (.atom trivial)
    · exact ofOption fun w hw => (Node.parts_wellFormed h.node_of).lookup hw
  · next e =>
    have hp : e.parts.WellFormed := by simp [OptionEntry.parts]
    exact ofOption fun w hw => hp.lookup hw
  · split <;> first | exact pure (.atom trivial) | exact unsupported
  · split <;> first | exact pure (.atom trivial) | exact unsupported
  · next f =>
    split
    · exact pure (.atom trivial)
    · cases f.number <;> exact pure (.atom trivial)
    · exact unsupported
  · refine (readDraft _).bind fun d hd => ?_
    split
    · exact pure (hd.part "option_type" rfl)
    · exact unsupported
  · exact unsupported

lemma assignmentFault (v : Value) (name : String) :
    Maintains (assignmentFault v name) Value.WellFormed := by
  unfold Session.assignmentFault
  split
  · exact fail _
  · exact fail _
  · exact unsupported

end Maintains

end Session

/-! ### Imports -/

namespace Import

lemma descriptor_wellFormed : descriptor.WellFormed :=
  ⟨"google/protobuf/descriptor".toList, by decide⟩

end Import

lemma Declaration.imports_wellFormed {d : Declaration} : ∀ i ∈ d.imports, i.WellFormed := by
  cases d with
  | extension e => exact List.forall_mem_singleton.2 Import.descriptor_wellFormed
  | _ => exact fun i hi => absurd hi List.not_mem_nil

lemma File.imports_wellFormed {f : File} (h : f.WellFormed) :
    ∀ i ∈ f.imports, i.WellFormed := by
  intro i hi
  rcases List.mem_append.1 (Import.mem_of_mem_canonical hi) with hi | hi
  · exact h.imports i hi
  · obtain ⟨d, -, hi⟩ := List.mem_flatMap.1 hi
    exact d.imports_wellFormed i hi

lemma Node.imports_wellFormed {n : Node} (h : n.WellFormed) {is : List Import}
    (hi : n.imports? = some is) : ∀ i ∈ is, i.WellFormed := by
  cases n with
  | extension e =>
    cases hi
    exact Declaration.imports_wellFormed
  | file f =>
    cases hi
    exact File.imports_wellFormed h
  | _ => cases hi

namespace Session.Maintains

/-! ### Actions -/

lemma answer {n : Node} (h : n.WellFormed) (a : Action) (args : List Value) :
    Maintains (answer n a args) Value.WellFormed := by
  unfold Session.answer
  split
  · exact (style _).bind fun _ _ => map (ofExcept _ fun _ _ => trivial) fun _ (_ : True) =>
      .atom trivial
  · exact (style _).bind fun _ _ => (ofExcept _ fun _ _ => trivial).bind fun _ (_ : True) =>
      pure (.atom trivial)
  · exact (ofExcept _ fun _ _ => trivial).bind fun _ (_ : True) => pure (.atom trivial)
  · exact (ofOption fun is hi => Node.imports_wellFormed h hi).bind fun is his =>
      pure (.list (Value.WellFormed.map fun i hi => .node (his i hi)))
  · exact map (ofOption fun _ _ => trivial) fun _ (_ : True) => .atom trivial
  · exact map (ofOption fun _ _ => trivial) fun _ (_ : True) => .atom trivial
  · exact (ofOption fun _ _ => trivial).bind fun _ (_ : True) => pure (.atom trivial)
  · exact (ofOption fun _ _ => trivial).bind fun _ (_ : True) =>
      pure (.list (Value.WellFormed.map fun _ _ => .atom trivial))
  · exact (ofOption fun _ _ => trivial).bind fun _ (_ : True) =>
      (ofExcept _ fun _ _ => trivial).bind fun _ (_ : True) =>
        pure (.list (Value.WellFormed.map fun _ _ => .atom trivial))
  · exact (ofOption fun _ _ => trivial).bind fun _ (_ : True) =>
      pure (.list (Value.WellFormed.map fun _ _ => .atom trivial))
  · split
    · exact pure (.atom trivial)
    · exact unsupported
  · exact unsupported

lemma action (a : Action) {v : Value} (hv : v.WellFormed) {args : List Value}
    (h : ∀ w ∈ args, w.WellFormed) : Maintains (a.apply v args) Value.WellFormed := by
  unfold Action.apply
  split
  · exact map (buildNode hv) fun _ hn => .node hn
  · exact (text _).bind fun name _ => partOf hv name
  · exact (text _).bind fun name _ => assignmentFault _ name
  · exact pure (.list (Value.WellFormed.map fun _ _ => .atom trivial))
  · exact map (displayed _) fun _ _ => .atom trivial
  · exact map (contents hv) fun _ hc => .list hc
  · exact map (ofExcept _ fun _ _ => trivial) fun _ (_ : True) => .atom trivial
  · exact map (formatted _ _) fun _ _ => .atom trivial
  · exact answer hv.node_of _ _
  · exact (readDraft _).bind fun d hd => (changed hd _ h).bind fun e he => (writeDraft _ he).bind
      fun _ _ => pure (.atom trivial)
  · exact unsupported

end Session.Maintains

/-! ### Expressions -/

/-- Neither a node nor an entry is in the value. -/
inductive Value.Simple : Value → Prop
  | atom {v : Value} (h : v.IsAtom) : Simple v
  | list {vs : List Value} (h : ∀ v ∈ vs, Simple v) : Simple (.list vs)
  | tuple {vs : List Value} (h : ∀ v ∈ vs, Simple v) : Simple (.tuple vs)

lemma Value.Simple.wellFormed {v : Value} (h : v.Simple) : v.WellFormed := by
  induction h with
  | atom h => exact .atom h
  | list _ ih => exact .list ih
  | tuple _ ih => exact .tuple ih

namespace Session

/-- All constants of the expression are simple, so whatever nodes it gives are constructed by it. -/
inductive Expr.Simple : Expr → Prop
  | constant {v : Value} (h : v.Simple) : Simple (.constant v)
  | number (digits : String) : Simple (.number digits)
  | member (enumeration : Enumeration) (given : Value) : Simple (.member enumeration given)
  | list {items : List Expr} (h : ∀ e ∈ items, Simple e) : Simple (.list items)
  | tuple {items : List Expr} (h : ∀ e ∈ items, Simple e) : Simple (.tuple items)
  | reference (name : String) : Simple (.reference name)
  | call (callee : Callee) {args : List Expr} (h : ∀ e ∈ args, Simple e) :
    Simple (.call callee args)
  | assemble (kind : Kind) (names : List String) {parts : List Expr} (h : ∀ e ∈ parts, Simple e) :
      Simple (.assemble kind names parts)
  | send {receiver : Expr} (hr : Simple receiver) (action : Action) {args : List Expr}
      (h : ∀ e ∈ args, Simple e) : Simple (.send receiver action args)

namespace Maintains

lemma evalAll {es : List Expr} (h : ∀ e ∈ es, Maintains e.eval Value.WellFormed) :
    Maintains (Expr.evalAll es) fun vs => ∀ v ∈ vs, v.WellFormed := by
  induction es with
  | nil => exact pure fun _ hv => absurd hv List.not_mem_nil
  | cons e es ih =>
    obtain ⟨he, hes⟩ := List.forall_mem_cons.1 h
    exact he.bind fun v hv => (ih hes).bind fun vs hvs => pure (List.forall_mem_cons.2 ⟨hv, hvs⟩)

lemma wellFormed_zip {names : List String} {vs : List Value} (h : ∀ v ∈ vs, v.WellFormed) :
    Parts.WellFormed (names.zip vs) :=
  fun _ hp => h _ (List.of_mem_zip hp).2

lemma eval {e : Expr} (h : e.Simple) : Maintains e.eval Value.WellFormed := by
  induction h with
  | constant h => exact constant h.wellFormed
  | number digits => exact map (ofExcept _ fun _ _ => trivial) fun _ (_ : True) => .atom trivial
  | member enumeration given => exact member enumeration given
  | list _ ih => exact (evalAll ih).bind fun _ hv => pure (.list hv)
  | tuple _ ih => exact (evalAll ih).bind fun _ hv => pure (.tuple hv)
  | reference name => exact valueOf name
  | call callee _ ih => exact (evalAll ih).bind fun _ hv => Maintains.callee callee hv
  | assemble kind names _ ih =>
    exact (evalAll ih).bind fun _ hv => assembled kind (wellFormed_zip hv)
  | send _ action _ ihr ih =>
    exact ihr.bind fun _ hr => (evalAll ih).bind fun _ hv => Maintains.action action hr hv

lemma step {s : Step} (h : s.expr.Simple) : Maintains s.eval Value.WellFormed := by
  refine (eval h).bind fun v hv => ?_
  cases s.target with
  | none => exact pure hv
  | some name => exact (setVariable name hv).bind fun _ _ => pure hv

end Maintains

/-! ### Sessions -/

/-- A step leaves a well formed state, whatever becomes of it. -/
lemma wellFormed_runFrom {α : Type} {r : Run α} {P : α → Prop} (hr : Maintains r P) {s : State}
    (hs : s.WellFormed) : (runFrom s r).1.WellFormed ∧ ∀ a, (runFrom s r).2 = .ok a → P a := by
  have h := hr.run s hs
  unfold runFrom
  cases hrs : r s with
  | ok a t =>
    rw [hrs] at h
    refine ⟨h.1, fun b hb => ?_⟩
    cases hb
    exact h.2
  | error e t =>
    rw [hrs] at h
    exact ⟨h, fun b hb => nomatch hb⟩

lemma wellFormed_of_results {s : State} (hs : s.WellFormed) {steps : List Step}
    (h : ∀ step ∈ steps, step.expr.Simple) {v : Value} (hv : .ok v ∈ results s steps) :
    v.WellFormed := by
  induction steps generalizing s with
  | nil => cases hv
  | cons step steps ih =>
    obtain ⟨he, hes⟩ := List.forall_mem_cons.1 h
    obtain ⟨ht, hr⟩ := wellFormed_runFrom (Maintains.step he) hs
    rcases List.mem_cons.1 hv with hv | hv
    · exact hr v hv.symm
    · exact ih ht hes hv

/-- **Constructed nodes**: whatever steps a session takes, and whichever of them fail, all nodes and
entries in the values it gives are well formed, down to the last declaration inside of them. -/
theorem results_wellFormed {steps : List Step} (h : ∀ step ∈ steps, step.expr.Simple) {v : Value}
    (hv : .ok v ∈ results {} steps) : v.WellFormed ∧ ∀ n, v = .node n → n.WellFormed := by
  have hs : ({} : State).WellFormed := ⟨by simp, by simp⟩
  have hw := wellFormed_of_results hs h hv
  exact ⟨hw, fun n hn => (hn ▸ hw).node_of⟩

/-! ### A session for examples -/

/-- An enum from named parts, with a value from a draft; two steps on the way to it fail. -/
def switchSession : List Step :=
  [⟨.call (.optionFor .enumValue) [.constant (.text "deprecated")], some "o"⟩,
    ⟨.send (.reference "o") .setComment [.constant (.text "too old")], none⟩,
    ⟨.send (.reference "o") .setValue [.constant (.fieldType .bool), .constant (.bool true)], none⟩,
    ⟨.call .enumValue [.constant (.text "ON"), .constant (.int (-1))], none⟩,
    ⟨.send (.call .enumValue [.constant (.text "ON"), .constant (.int 1)]) .addOptions
      [.reference "o"], some "v"⟩,
    ⟨.assemble .enum ["name", "enum_values"]
      [.constant (.text "Switch"), .list [.send (.reference "v") .build []]], none⟩]

def switch : EnumDecl where
  name := "Switch"
  values := [⟨"ON", 1, [], [⟨.enumValue, "deprecated", [], .literal .bool (.bool true)⟩]⟩]

lemma simple_switchSession : ∀ step ∈ switchSession, step.expr.Simple := by
  have hc : ∀ {v : Value}, v.IsAtom → (Expr.constant v).Simple := fun h => .constant (.atom h)
  have hr : ∀ name, ∀ e ∈ [Expr.reference name], e.Simple := fun name =>
    List.forall_mem_singleton.2 (.reference name)
  have hv : ∀ n, ∀ e ∈ [Expr.constant (.text "ON"), .constant (.int n)], e.Simple := fun n =>
    List.forall_mem_cons.2 ⟨hc trivial, List.forall_mem_singleton.2 (hc trivial)⟩
  simp only [switchSession, List.forall_mem_cons]
  refine ⟨.call _ ?_, .send (.reference _) _ ?_, .send (.reference _) _ ?_, .call _ (hv _),
    .send (.call _ (hv _)) _ (hr _), .assemble _ _ ?_, by simp⟩
  · exact List.forall_mem_singleton.2 (hc trivial)
  · exact List.forall_mem_singleton.2 (hc trivial)
  · exact List.forall_mem_cons.2 ⟨hc trivial, List.forall_mem_singleton.2 (hc trivial)⟩
  · refine List.forall_mem_cons.2 ⟨hc trivial, List.forall_mem_singleton.2 (.list ?_)⟩
    exact List.forall_mem_singleton.2 (.send (.reference _) _ (by simp))

/-- The node that the last step gives is well formed. -/
theorem results_wellFormed_switch :
    results {} switchSession = [.ok (.draft 0 .option), .error (.refused .inlineComment),
      .ok (.draft 0 .option), .error (.refused .numberNegative), .ok (.draft 1 .enumValue),
      .ok (.node (.enum switch))] ∧
      (∀ step ∈ switchSession, step.expr.Simple) ∧ switch.WellFormed := by
  have hr : results {} switchSession = [.ok (.draft 0 .option), .error (.refused .inlineComment),
      .ok (.draft 0 .option), .error (.refused .numberNegative), .ok (.draft 1 .enumValue),
      .ok (.node (.enum switch))] := rfl
  have hm : .ok (.node (.enum switch)) ∈ results {} switchSession := by simp [hr]
  have hw := (results_wellFormed simple_switchSession hm).2 _ rfl
  exact ⟨hr, simple_switchSession, hw⟩

end Session

end ProtoSchema
